import Srtla.Receiver.Handshake

/-!
# Address ownership and isolation of groups

A group owns the addresses of its connections and its last address.

* `address_ownership`: in every reachable state an address has at most one
  owner, and `find_by_address` returns it in whatever order the groups stand.
* `groups_isolated`: datagrams from addresses a group does not own, and that are
  not a REG2 with its id, leave the group exactly as it is, unless it is pending
  and is evicted from a full table.
-/

namespace Srtla.Receiver

open Lib

variable {s : State}

/-! ## Ownership -/

/-- In a state with disjoint groups, the search by address finds the owner. -/
theorem findByAddress_owner (h : Inv s) {order : List ConnectionGroup} (hp : order.Perm s.groups)
    {a : SockaddrStorage} {g : ConnectionGroup} (hg : g ∈ s.groups) (ha : g.Owns a) :
    findByAddress order a = some (g, g.conns.find? fun c => addressesEqual c.addr a) := by
  cases hf : findByAddress order a with
  | none => exact absurd ha (findByAddress_eq_none_iff.mp hf g (hp.mem_iff.mpr hg))
  | some p =>
    obtain ⟨hp', hfind, howns⟩ := findByAddress_eq_some (show _ = some (p.1, p.2) from hf)
    have hpg : p.1 = g := h.owner_unique (hp.mem_iff.mp hp') hg howns ha
    rw [← hpg, hfind]

/-- The search within a group finds the connection at an address. -/
theorem find_conn_eq_some_iff {n : ℕ} {g : ConnectionGroup} (h : g.WF n) {a : SockaddrStorage}
    {c : Connection} : g.conns.find? (fun c => addressesEqual c.addr a) = some c ↔
      c ∈ g.conns ∧ addressesEqual c.addr a = true := by
  constructor
  · exact find_conn
  · rintro ⟨hc, ha⟩
    cases hf : g.conns.find? fun c => addressesEqual c.addr a with
    | none => exact absurd ha (by simpa using List.find?_eq_none.mp hf c hc)
    | some c' =>
      obtain ⟨hc', ha'⟩ := find_conn hf
      have he : addressesEqual c'.addr c.addr = true :=
        addressesEqual_iff.mpr ((addressesEqual_iff.mp ha').trans (addressesEqual_iff.mp ha).symm)
      rw [h.conn_unique hc' hc he]

/-- A registered connection is found by its address. -/
theorem findByAddress_registered (h : Inv s) {g : ConnectionGroup} {c : Connection} (hg : g ∈ s.groups)
    (hc : c ∈ g.conns) : findByAddress s.groups c.addr = some (g, some c) := by
  have ha := addressesEqual_refl c.addr
  rw [findByAddress_owner h (List.Perm.refl _) hg (Or.inl ⟨c, hc, ha⟩),
    (find_conn_eq_some_iff (h.wf g hg)).mpr ⟨hc, ha⟩]

/-- A packet on the only connection of the only group. -/
theorem step_packet_lone (h : Inv s) {g g' : ConnectionGroup} {c : Connection} (hgroups : s.groups = [g])
    (hconns : g.conns = [c]) {buf : Bytes} {ts : ℤ} {env : PacketEnv}
    (hreg : isSrtlaReg1 (mem buf) buf.length = false ∧ isSrtlaReg2 (mem buf) buf.length = false)
    (hafter : afterPacket g c buf c.addr ts env = some g') :
    (step s (.packet buf c.addr ts env)).1.groups = [g'] ∧ ∃ c', g'.conns = [c'] ∧ c'.addr = c.addr := by
  have hg : g ∈ s.groups := hgroups ▸ List.mem_singleton_self g
  have hc : c ∈ g.conns := hconns ▸ List.mem_singleton_self c
  have hf := findByAddress_registered h hg hc
  refine ⟨?_, ?_⟩
  · rw [step, processSinglePacket_conn hreg.1 hreg.2 hf, hafter, hgroups]
    exact congrArg (· :: []) (if_pos (afterPacket_ref hafter).symm)
  · obtain ⟨f, hvia, hf'⟩ := @onPacket_conns g c buf c.addr ts env (h.wf g hg).connRefs hc
    rw [hconns, List.map_singleton] at hf'
    refine ⟨f c, ?_, ?_⟩
    · rw [afterPacket_frame hafter]
      exact hf'
    · rw [(hvia c).addr, writeConn, c.received_ref, if_pos rfl, c.received_addr]

/-- **Address ownership is unique.** No two groups own an address, no two
    connections of a group have the same address, and `find_by_address` returns
    the owner, with the connection at that address if one is registered, in
    whatever order the groups stand. -/
theorem address_ownership (s : State) (h : Reachable s) :
    (s.groups.Pairwise fun g g' => ∀ a, ¬ (g.Owns a ∧ g'.Owns a)) ∧
    (∀ g ∈ s.groups, g.conns.Pairwise fun c c' => addressesEqual c.addr c'.addr = false) ∧
    ∀ order : List ConnectionGroup, order.Perm s.groups → ∀ a,
      (findByAddress order a = none ↔ ∀ g ∈ s.groups, ¬ g.Owns a) ∧
      ∀ g ∈ s.groups, g.Owns a → ∃ oc, findByAddress order a = some (g, oc) ∧
        ∀ c, oc = some c ↔ (∃ g' ∈ s.groups, c ∈ g'.conns) ∧ addressesEqual c.addr a = true := by
  have hinv := reachable_inv h
  refine ⟨hinv.apart.imp fun hap a ha => hap.1 a ha.1 ha.2, ?_, ?_⟩
  · intro g hg
    exact (hinv.wf g hg).addrs_apart
  · intro order hp a
    constructor
    · rw [findByAddress_eq_none_iff]
      exact ⟨fun hno g hg => hno g (hp.mem_iff.mpr hg), fun hno g hg => hno g (hp.mem_iff.mp hg)⟩
    · intro g hg ha
      refine ⟨_, findByAddress_owner hinv hp hg ha, fun c => ?_⟩
      rw [find_conn_eq_some_iff (hinv.wf g hg)]
      constructor
      · rintro ⟨hc, hca⟩
        exact ⟨⟨g, hg, hc⟩, hca⟩
      · rintro ⟨⟨g', hg', hc⟩, hca⟩
        have hgg : g' = g := hinv.owner_unique hg' hg (Or.inl ⟨c, hc, hca⟩) ha
        exact ⟨hgg ▸ hc, hca⟩

/-- With a second group in the table, and its list reversed, the search finds the
    connection of the first group, the second group by its last address, and nobody
    for the address of the REG1. -/
theorem address_ownership_two :
    let s := receiver.run State.init twoGroupOps
    let g := handshakeGroup default default (sampleAddr 1) (sampleAddr 2) 0 0
    s.groups = [g, pendingGroup] ∧
      findByAddress s.groups.reverse (sampleAddr 2) = some (g, some (.create 1 (sampleAddr 2) 0)) ∧
      (∃ oc, findByAddress s.groups.reverse (sampleAddr 3) = some (pendingGroup, oc)) ∧
      findByAddress s.groups.reverse (sampleAddr 1) = none := by
  intro s g
  have hgroups : s.groups = [g, pendingGroup] := run_twoGroupOps
  have hg : g ∈ s.groups := by rw [hgroups]; exact List.mem_cons_self
  have hpending : pendingGroup ∈ s.groups := by rw [hgroups]; exact List.mem_cons_of_mem _ List.mem_cons_self
  have hc : Connection.create 1 (sampleAddr 2) 0 ∈ g.conns := List.mem_singleton_self _
  have hfind := (address_ownership s ⟨twoGroupOps, rfl⟩).2.2 _ (List.reverse_perm s.groups)
  refine ⟨hgroups, ?_, ?_, ?_⟩
  · obtain ⟨oc, hfound, hoc⟩ := (hfind (sampleAddr 2)).2 g hg (Or.inl ⟨_, hc, addressesEqual_refl _⟩)
    rw [hfound, (hoc _).mpr ⟨⟨g, hg, hc⟩, addressesEqual_refl _⟩]
  · obtain ⟨oc, hfound, _⟩ := (hfind (sampleAddr 3)).2 pendingGroup hpending (Or.inr (addressesEqual_refl _))
    exact ⟨oc, hfound⟩
  · refine (hfind (sampleAddr 1)).1.mpr fun x hx => ?_
    rw [hgroups] at hx
    rcases List.mem_cons.mp hx with rfl | hx
    · exact handshakeGroup_not_owns (by decide)
    · obtain rfl := List.mem_singleton.mp hx
      exact not_owns_sampleAddr (fun c hc => absurd hc List.not_mem_nil) ⟨3, by decide, rfl⟩

/-! ## Isolation -/

/-- A datagram that has nothing to do with `G`: it comes from an address `G` does
    not own, and it is no REG2 with `G`'s id. -/
def Foreign (G : ConnectionGroup) (d : Arrival) : Prop :=
  ¬ G.Owns d.addr ∧
    ¬ (isSrtlaReg2 (mem d.buf) d.buf.length = true ∧ readBlock (mem d.buf) 2 256 = G.id)

theorem mem_afterEviction_or {G : ConnectionGroup} (h : Inv s) (hG : G ∈ s.groups) :
    G ∈ s.afterEviction ∨ s.victim = some G := by
  unfold State.afterEviction
  cases hv : s.victim with
  | none => exact Or.inl hG
  | some v =>
    have hmem : v ∈ s.groups := by
      unfold State.victim at hv
      split_ifs at hv
      exact (oldestPending_eq_some hv).1
    by_cases he : G.ref = v.ref
    · right
      rw [Keyed.eq_of_key_eq h.refs hG hmem he]
    · exact Or.inl (Keyed.mem_remove.mpr ⟨hG, he⟩)

/-- A REG1 leaves `G` as it is or evicts it. -/
theorem registerGroup_keeps {G : ConnectionGroup} (h : Inv s) (hG : G ∈ s.groups)
    (addr : SockaddrStorage) (buffer : Mem) (ts : ℤ) (env : PacketEnv) :
    let groups := (registerGroup s addr buffer ts env).2.1.groups
    G ∈ groups ∨ s.victim = some G ∧ ∀ g ∈ groups, g.ref ≠ G.ref := by
  obtain ⟨_, hcase⟩ := registerGroup_cases s addr buffer ts env
  have hgone : s.victim = some G → ∀ g ∈ s.afterEviction, g.ref ≠ G.ref := by
    intro hv g hg
    unfold State.afterEviction at hg
    rw [hv] at hg
    exact (Keyed.mem_remove.mp hg).2
  have hG' := mem_afterEviction_or h hG
  have hlt := (h.wf G hG).ref_lt
  dsimp only
  cases ho : regGroupOutcome s addr ts env with
  | throttled => rw [ho] at hcase; exact Or.inl (hcase.2.1 ▸ hG)
  | tableFull => rw [ho] at hcase; exact Or.inl (hcase.2.1 ▸ hG)
  | dupAddr =>
    rw [ho] at hcase
    rw [hcase.2.1]
    exact hG'.imp id fun hv => ⟨hv, hgone hv⟩
  | sendError =>
    rw [ho] at hcase
    rw [hcase.2.1]
    exact hG'.imp id fun hv => ⟨hv, hgone hv⟩
  | registered =>
    rw [ho] at hcase
    rw [hcase.2.1]
    refine hG'.imp (List.mem_append_left _) fun hv => ⟨hv, ?_⟩
    intro g hg
    rcases List.mem_append.mp hg with hg | hg
    · exact hgone hv g hg
    · rw [List.mem_singleton.mp hg]
      exact hlt.ne'

/-- A REG2 writes to the group with its id only. -/
theorem registerConnection_keeps {G : ConnectionGroup} (h : Inv s) (hG : G ∈ s.groups)
    {buffer : Mem} (hid : readBlock buffer 2 256 ≠ G.id) (addr : SockaddrStorage) (ts : ℤ)
    (env : PacketEnv) : G ∈ (registerConnection s addr buffer ts env).2.1.groups := by
  have hput : ∀ g g' : ConnectionGroup, findGroupById s.groups (readBlock buffer 2 256) = some g →
      g'.ref = g.ref → G ∈ Keyed.put ConnectionGroup.ref g' s.groups := by
    intro g g' hfound href
    obtain ⟨hg, hgid⟩ := findGroupById_eq_some hfound
    refine Keyed.mem_put.mpr (Or.inr ⟨hG, fun he => hid ?_⟩)
    rw [Keyed.eq_of_key_eq h.refs hG hg (he.trans href), hgid]
  rcases registerConnection_cases s h.refs addr buffer ts env with
    ⟨_, hgroups, _⟩ | ⟨g, hfound, _, _, _, _, hjoin | ⟨c, hrep⟩⟩
  · exact hgroups ▸ hG
  · rw [hjoin.2.2.2]
    exact hput g _ hfound rfl
  · rw [hrep.2]
    exact hput g _ hfound rfl

/-- One foreign datagram: the group stays as it is, or it is the one a REG1 evicts. -/
theorem foreign_step {G : ConnectionGroup} (h : Inv s) (hG : G ∈ s.groups) {d : Arrival}
    (hd : Foreign G d) :
    G ∈ (step s d.op).1.groups ∨
      isSrtlaReg1 (mem d.buf) d.buf.length = true ∧ s.victim = some G ∧
        ∀ g ∈ (step s d.op).1.groups, g.ref ≠ G.ref := by
  simp only [Arrival.op, step]
  cases packetCase s d.buf d.addr with
  | reg1 h1 =>
    rw [processSinglePacket_reg1 h1]
    exact (registerGroup_keeps h hG d.addr (mem d.buf) d.ts d.env).imp id fun hv => ⟨h1, hv⟩
  | reg2 h2 =>
    left
    rw [processSinglePacket_reg2 h2]
    exact registerConnection_keeps h hG (fun hid => hd.2 ⟨h2, hid⟩) d.addr d.ts d.env
  | @conn g c h1 h2 hf =>
    left
    obtain ⟨hg, hc, ha⟩ := findByAddress_conn hf
    have hne : G.ref ≠ g.ref := by
      intro he
      rw [Keyed.eq_of_key_eq h.refs hG hg he] at hd
      exact hd.1 (Or.inl ⟨c, hc, ha⟩)
    rw [processSinglePacket_conn h1 h2 hf, Keyed.mem_update_of_ne (fun _ => afterPacket_ref) hne]
    exact hG
  | stranger h1 h2 hf =>
    left
    rw [processSinglePacket_stranger h1 h2 hf]
    exact hG

/-- **Groups are isolated from strangers.** Whatever foreign datagrams arrive,
    the group is still registered with every field unchanged, or it was pending
    and some REG1 in a full table evicted it. -/
theorem groups_isolated (s : State) (h : Reachable s) (G : ConnectionGroup) (hG : G ∈ s.groups)
    (ds : List Arrival) (hds : ∀ d ∈ ds, Foreign G d) :
    G ∈ (receiver.run s (ds.map Arrival.op)).groups ∨
      G.pending = true ∧ ∃ before d after, ds = before ++ d :: after ∧
        let s₁ := receiver.run s (before.map Arrival.op)
        G ∈ s₁.groups ∧ s₁.groups.length = maxGroups ∧
        isSrtlaReg1 (mem d.buf) d.buf.length = true ∧ oldestPending s₁.groups = some G ∧
        s₁.evictOldestPendingGroup.1 = true ∧
        s₁.evictOldestPendingGroup.2.groups = Keyed.remove ConnectionGroup.ref G.ref s₁.groups ∧
        ∀ g ∈ (receiver.run s (ds.map Arrival.op)).groups, g.ref ≠ G.ref := by
  have hinv := reachable_inv h
  clear h
  induction ds generalizing s with
  | nil => exact Or.inl hG
  | cons d ds ih =>
    have hstep := step_regStep hinv d.op
    have hinv' := hstep.inv hinv
    rcases foreign_step hinv hG (hds d List.mem_cons_self) with hstay | ⟨hreg1, hv, hgone⟩
    · rcases ih _ hstay (fun x hx => hds x (List.mem_cons_of_mem _ hx)) hinv' with
        hin | ⟨hpend, before, x, after, rfl, hrest⟩
      · exact Or.inl hin
      · exact Or.inr ⟨hpend, d :: before, x, after, rfl, hrest⟩
    · have hfull : s.groups.length ≥ maxGroups ∧ oldestPending s.groups = some G := by
        unfold State.victim at hv
        split_ifs at hv with hfull
        exact ⟨hfull, hv⟩
      have hlt := (hinv.wf G hG).ref_lt.trans_le hstep.nextRef_le
      refine Or.inr ⟨(oldestPending_eq_some hfull.2).2.1, [], d, ds, rfl, hG,
        le_antisymm hinv.table hfull.1, hreg1, hfull.2, ?_, ?_,
        run_gone hinv' hlt hgone (ds.map Arrival.op)⟩
      · simp only [List.map_nil, Machine.run_nil, State.evictOldestPendingGroup, hfull.2]
      · simp only [List.map_nil, Machine.run_nil, State.evictOldestPendingGroup, hfull.2]
        rfl

/-- A group with a connection survives a REG1 and a stray packet from elsewhere. -/
theorem groups_isolated_handshake :
    handshakeGroup default default (sampleAddr 1) (sampleAddr 2) 0 0 ∈
      (receiver.run (receiver.run State.init (handshake default default (sampleAddr 1) (sampleAddr 2) 0 0))
        ([⟨reg1Frame default, sampleAddr 9, 1, default⟩, ⟨[0, 0], sampleAddr 8, 1, default⟩].map
          Arrival.op)).groups := by
  set g := handshakeGroup default default (sampleAddr 1) (sampleAddr 2) 0 0 with hg
  have hgroups := (run_handshake default default (sampleAddr 1) (sampleAddr 2) 0 0).1
  have howns : ∀ p : UInt16, p ≠ 2 → ¬ g.Owns (sampleAddr p) := by
    rintro p hp (⟨c, hc, he⟩ | he)
    · rw [List.mem_singleton.mp hc] at he
      exact hp (addressesEqual_sampleAddr.mp he).symm
    · exact hp (addressesEqual_sampleAddr.mp he).symm
  have hmem : g ∈ (receiver.run State.init
      (handshake default default (sampleAddr 1) (sampleAddr 2) 0 0)).groups := by
    rw [hgroups]
    exact List.mem_singleton_self g
  refine (groups_isolated _ ⟨_, rfl⟩ g hmem _ ?_).resolve_right fun h => absurd h.1 (by decide)
  intro d hd
  rcases List.mem_cons.mp hd with rfl | hd
  · refine ⟨howns 9 (by decide), fun h => ?_⟩
    have := isSrtlaReg1_reg1Frame default
    rw [not_isSrtlaReg1_of_isSrtlaReg2 h.1] at this
    exact absurd this (by decide)
  · rw [List.mem_singleton.mp hd]
    exact ⟨howns 8 (by decide), fun h => absurd h.1 (by decide)⟩

end Srtla.Receiver
