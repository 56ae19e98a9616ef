import Srtla.Lib.Narrowing
import Srtla.Receiver.Machine

/-!
# What a step does to the registry

Every input changes the registry in one of three ways (`RegStep`): entries are
edited or dropped, one connection joins one group, or one group is created,
possibly after an eviction. `step_regStep` shows that the receiver refines this
transition relation; the invariant `Inv` is then proved from the relation alone.

* `step_regStep`: every step of the receiver is a `RegStep`.
* `reachable_inv`: `Inv` holds in every reachable state. Its parts are distinct
  identities, disjoint groups (`Apart`), and the well-formedness of each group
  (`ConnectionGroup.WF`).
-/

namespace Srtla.Receiver

open Lib

/-! ## Edits of a group -/

/-- The part of a connection that never changes. -/
def Connection.key (c : Connection) : ℕ × SockaddrStorage := (c.ref, c.addr)

/-- The index `register_packet` leaves: below `RECV_ACK_INT`. -/
def Connection.InRange (c : Connection) : Prop := 0 ≤ c.recvIdx ∧ c.recvIdx < recvAckInt

/-- `g'` is `g` with fewer connections, other contents and perhaps another
    address of its own as the last one. -/
structure GroupEdit (g' g : ConnectionGroup) : Prop where
  ref : g'.ref = g.ref
  id : g'.id = g.id
  createdAt : g'.createdAt = g.createdAt
  keys : (g'.conns.map Connection.key).Sublist (g.conns.map Connection.key)
  lastAddr : g.Owns g'.lastAddr
  inRange : (∀ c ∈ g.conns, c.InRange) → ∀ c ∈ g'.conns, c.InRange
  socket : (0 ≤ g.srtSock → g.dataSeen = true) → 0 ≤ g'.srtSock → g'.dataSeen = true

theorem ConnectionGroup.owns_lastAddr (g : ConnectionGroup) : g.Owns g.lastAddr :=
  Or.inr (addressesEqual_refl _)

theorem ConnectionGroup.Owns.congr {g : ConnectionGroup} {a b : SockaddrStorage}
    (h : addressesEqual a b = true) : g.Owns a ↔ g.Owns b := by
  have hab : ∀ x : SockaddrStorage, addressesEqual x a = true ↔ addressesEqual x b = true := by
    intro x
    rw [addressesEqual_iff, addressesEqual_iff, addressesEqual_iff.mp h]
  unfold ConnectionGroup.Owns
  simp only [hab]

theorem GroupEdit.self (g : ConnectionGroup) : GroupEdit g g where
  ref := rfl
  id := rfl
  createdAt := rfl
  keys := List.Sublist.refl _
  lastAddr := g.owns_lastAddr
  inRange := fun h => h
  socket := fun h => h

theorem GroupEdit.connRefs {g' g : ConnectionGroup} (h : GroupEdit g' g) :
    (g'.conns.map Connection.ref).Sublist (g.conns.map Connection.ref) := by
  have := h.keys.map Prod.fst
  rwa [List.map_map, List.map_map] at this

theorem GroupEdit.endpoints {g' g : ConnectionGroup} (h : GroupEdit g' g) :
    (g'.conns.map fun c => c.addr.endpoint).Sublist (g.conns.map fun c => c.addr.endpoint) := by
  have := h.keys.map fun k => k.2.endpoint
  rwa [List.map_map, List.map_map] at this

theorem GroupEdit.exists_conn {g' g : ConnectionGroup} (h : GroupEdit g' g) {c' : Connection}
    (hc : c' ∈ g'.conns) : ∃ c ∈ g.conns, c.ref = c'.ref ∧ c.addr = c'.addr := by
  obtain ⟨c, hc', hk⟩ := List.mem_map.mp (h.keys.subset (List.mem_map_of_mem hc))
  exact ⟨c, hc', congrArg Prod.fst hk, congrArg Prod.snd hk⟩

/-- An edit never makes a group own a new address. -/
theorem GroupEdit.owns {g' g : ConnectionGroup} (h : GroupEdit g' g) {a : SockaddrStorage}
    (ha : g'.Owns a) : g.Owns a := by
  rcases ha with ⟨c', hc', he⟩ | he
  · obtain ⟨c, hc, _, haddr⟩ := h.exists_conn hc'
    exact Or.inl ⟨c, hc, haddr ▸ he⟩
  · exact (ConnectionGroup.Owns.congr he).mp h.lastAddr

/-! ## Transitions of the registry -/

/-- What one input can do to the registry. -/
inductive RegStep (s s' : State) : Prop
  /-- Groups are edited or dropped. -/
  | narrow (groups : List.SublistForall₂ GroupEdit s'.groups s.groups)
      (nextRef : s.nextRef ≤ s'.nextRef)
  /-- A connection from `addr`, which no other group owns, joins `g`. -/
  | join {g : ConnectionGroup} {addr : SockaddrStorage} {ts : ℤ} (mem : g ∈ s.groups)
      (owner : ∀ x ∈ s.groups, x.Owns addr → x = g)
      (fresh : ∀ c ∈ g.conns, addressesEqual c.addr addr = false)
      (room : g.conns.length < maxConnsPerGroup)
      (groups : s'.groups = Keyed.put ConnectionGroup.ref
        { g.addConnection (Connection.create s.nextRef addr ts) with lastAddr := addr } s.groups)
      (nextRef : s'.nextRef = s.nextRef + 1)
  /-- A group is created for `addr`, which nobody owns. -/
  | create {rest : List ConnectionGroup} {clientId random : IdHalf} {ts : ℤ}
      {addr : SockaddrStorage} (sublist : rest.Sublist s.groups) (room : rest.length < maxGroups)
      (fresh : ∀ x ∈ rest, ¬ x.Owns addr)
      (groups : s'.groups =
        rest ++ [ConnectionGroup.create s.nextRef clientId random ts addr])
      (nextRef : s'.nextRef = s.nextRef + 1)

theorem RegStep.of_groups_eq {s s' : State} (h : s'.groups = s.groups)
    (hn : s.nextRef ≤ s'.nextRef) : RegStep s s' :=
  .narrow (by rw [h]; exact Narrowing.of_sublist GroupEdit.self (List.Sublist.refl _)) hn

/-! ## The invariant -/

/-- A group that is well formed when identities below `n` have been handed out. -/
structure ConnectionGroup.WF (n : ℕ) (g : ConnectionGroup) : Prop where
  ref_lt : g.ref < n
  endpoints : (g.conns.map fun c => c.addr.endpoint).Nodup
  connRefs : (g.conns.map Connection.ref).Nodup
  connRefs_lt : ∀ c ∈ g.conns, c.ref < n
  size : g.conns.length ≤ maxConnsPerGroup
  inRange : ∀ c ∈ g.conns, c.InRange
  socket : 0 ≤ g.srtSock → g.dataSeen = true

/-- Two groups share no address and no connection. -/
def Apart (g g' : ConnectionGroup) : Prop :=
  (∀ a, g.Owns a → ¬ g'.Owns a) ∧ ∀ c ∈ g.conns, ∀ c' ∈ g'.conns, c.ref ≠ c'.ref

/-- The invariant of the registry. -/
structure Inv (s : State) : Prop where
  refs : (s.groups.map ConnectionGroup.ref).Nodup
  apart : s.groups.Pairwise Apart
  wf : ∀ g ∈ s.groups, g.WF s.nextRef
  table : s.groups.length ≤ maxGroups

theorem Apart.symm {g g' : ConnectionGroup} (h : Apart g g') : Apart g' g :=
  ⟨fun a h1 h2 => h.1 a h2 h1, fun c hc c' hc' e => h.2 c' hc' c hc e.symm⟩

theorem GroupEdit.wf {g' g : ConnectionGroup} (h : GroupEdit g' g) {n m : ℕ} (hg : g.WF n)
    (hnm : n ≤ m) : g'.WF m where
  ref_lt := by rw [h.ref]; exact hg.ref_lt.trans_le hnm
  endpoints := h.endpoints.nodup hg.endpoints
  connRefs := h.connRefs.nodup hg.connRefs
  connRefs_lt := by
    intro c' hc'
    obtain ⟨c, hc, href, _⟩ := h.exists_conn hc'
    rw [← href]
    exact (hg.connRefs_lt c hc).trans_le hnm
  size := by
    have := h.connRefs.length_le
    rw [List.length_map, List.length_map] at this
    exact this.trans hg.size
  inRange := h.inRange hg.inRange
  socket := h.socket hg.socket

theorem GroupEdit.apart {x y x₂ y₂ : ConnectionGroup} (h : GroupEdit x y) (h₂ : GroupEdit x₂ y₂)
    (ha : Apart y y₂) : Apart x x₂ := by
  refine ⟨fun a h1 h2 => ha.1 a (h.owns h1) (h₂.owns h2), ?_⟩
  intro c' hc' c₂' hc₂'
  obtain ⟨c, hc, href, _⟩ := h.exists_conn hc'
  obtain ⟨c₂, hc₂, href₂, _⟩ := h₂.exists_conn hc₂'
  rw [← href, ← href₂]
  exact ha.2 c hc c₂ hc₂

theorem inv_init : Inv State.init where
  refs := List.nodup_nil
  apart := List.Pairwise.nil
  wf := fun _ hg => absurd hg List.not_mem_nil
  table := Nat.zero_le _

/-- Two groups of a state in which the invariant holds are equal or apart. -/
theorem Inv.eq_or_apart {s : State} (h : Inv s) {g g' : ConnectionGroup} (hg : g ∈ s.groups)
    (hg' : g' ∈ s.groups) : g = g' ∨ Apart g g' := by
  by_cases he : g = g'
  · exact Or.inl he
  · have : Std.Symm Apart := ⟨fun _ _ => Apart.symm⟩
    exact Or.inr (h.apart.forall hg hg' he)

/-- An address has at most one owner. -/
theorem Inv.owner_unique {s : State} (h : Inv s) {g g' : ConnectionGroup} (hg : g ∈ s.groups)
    (hg' : g' ∈ s.groups) {a : SockaddrStorage} (ha : g.Owns a) (ha' : g'.Owns a) : g = g' := by
  rcases h.eq_or_apart hg hg' with he | hd
  · exact he
  · exact absurd ha' (hd.1 a ha)

/-- The connection at an address is unique within its group. -/
theorem ConnectionGroup.WF.conn_unique {n : ℕ} {g : ConnectionGroup} (h : g.WF n)
    {c c' : Connection} (hc : c ∈ g.conns) (hc' : c' ∈ g.conns)
    (he : addressesEqual c.addr c'.addr = true) : c = c' :=
  List.inj_on_of_nodup_map h.endpoints hc hc' (addressesEqual_iff.mp he)

/-! ## The invariant holds -/

theorem ConnectionGroup.WF.addrs_apart {n : ℕ} {g : ConnectionGroup} (h : g.WF n) :
    g.conns.Pairwise fun c c' => addressesEqual c.addr c'.addr = false := by
  have hnd : g.conns.Pairwise fun c c' => c.addr.endpoint ≠ c'.addr.endpoint :=
    List.pairwise_map.mp h.endpoints
  refine hnd.imp fun hne => ?_
  rw [← Bool.not_eq_true, addressesEqual_iff]
  exact hne

theorem inv_narrow {s s' : State} (h : Inv s)
    (groups : List.SublistForall₂ GroupEdit s'.groups s.groups) (nextRef : s.nextRef ≤ s'.nextRef) :
    Inv s' where
  refs := (Narrowing.map_sublist groups fun _ _ he => he.ref).nodup h.refs
  apart := Narrowing.pairwise groups (fun _ _ _ _ => GroupEdit.apart) h.apart
  wf := by
    intro g' hg'
    obtain ⟨g, hg, he⟩ := Narrowing.exists_of_mem groups hg'
    exact he.wf (h.wf g hg) nextRef
  table := (Narrowing.length_le groups).trans h.table

/-- A group with one more connection, which nothing else in the registry knows. -/
theorem ConnectionGroup.WF.join {n : ℕ} {g : ConnectionGroup} (h : g.WF n) {addr : SockaddrStorage}
    {ts : ℤ} (fresh : ∀ c ∈ g.conns, addressesEqual c.addr addr = false)
    (room : g.conns.length < maxConnsPerGroup) :
    ({ g.addConnection (Connection.create n addr ts) with lastAddr := addr } : ConnectionGroup).WF
      (n + 1) where
  ref_lt := h.ref_lt.trans (Nat.lt_succ_self n)
  endpoints := by
    show ((g.conns ++ [Connection.create n addr ts]).map fun c => c.addr.endpoint).Nodup
    rw [List.map_append, List.nodup_append]
    refine ⟨h.endpoints, List.nodup_singleton _, ?_⟩
    intro e he e' he' heq
    obtain ⟨c, hc, rfl⟩ := List.mem_map.mp he
    rw [List.map_singleton, List.mem_singleton] at he'
    have : addressesEqual c.addr addr = true := addressesEqual_iff.mpr (heq.trans he')
    rw [fresh c hc] at this
    exact absurd this (by decide)
  connRefs := by
    show ((g.conns ++ [Connection.create n addr ts]).map Connection.ref).Nodup
    rw [List.map_append, List.nodup_append]
    refine ⟨h.connRefs, List.nodup_singleton _, ?_⟩
    intro r hr r' hr' heq
    obtain ⟨c, hc, rfl⟩ := List.mem_map.mp hr
    rw [List.map_singleton, List.mem_singleton] at hr'
    have := h.connRefs_lt c hc
    have : c.ref = n := heq.trans hr'
    omega
  connRefs_lt := by
    intro c hc
    rcases List.mem_append.mp hc with hc | hc
    · exact (h.connRefs_lt c hc).trans (Nat.lt_succ_self n)
    · rw [List.mem_singleton.mp hc]
      exact Nat.lt_succ_self n
  size := by
    show (g.conns ++ [Connection.create n addr ts]).length ≤ _
    rw [List.length_append, List.length_singleton]
    exact room
  inRange := by
    intro c hc
    rcases List.mem_append.mp hc with hc | hc
    · exact h.inRange c hc
    · rw [List.mem_singleton.mp hc]
      exact ⟨le_refl _, by show (0 : ℤ) < recvAckInt; decide⟩
  socket := h.socket

theorem inv_join {s s' : State} (h : Inv s) {g : ConnectionGroup} {addr : SockaddrStorage} {ts : ℤ}
    (mem : g ∈ s.groups) (owner : ∀ x ∈ s.groups, x.Owns addr → x = g)
    (fresh : ∀ c ∈ g.conns, addressesEqual c.addr addr = false)
    (room : g.conns.length < maxConnsPerGroup)
    (groups : s'.groups = Keyed.put ConnectionGroup.ref
      { g.addConnection (Connection.create s.nextRef addr ts) with lastAddr := addr } s.groups)
    (nextRef : s'.nextRef = s.nextRef + 1) : Inv s' where
  refs := by rw [groups, Keyed.map_key_put]; exact h.refs
  apart := by
    rw [groups]
    apply Keyed.pairwise_put (fun _ _ => Apart.symm) h.refs h.apart
    intro x hx hne
    have hxg : x ≠ g := fun e => hne (by rw [e]; rfl)
    have hap : Apart g x := (h.eq_or_apart mem hx).resolve_left fun e => hxg e.symm
    -- the new connection brings in one address, which `x` does not own, and a new identity
    constructor
    · rintro a (⟨c, hc, he⟩ | he) hxa
      · rcases List.mem_append.mp hc with hc | hc
        · exact hap.1 a (Or.inl ⟨c, hc, he⟩) hxa
        · rw [List.mem_singleton.mp hc] at he
          exact hxg (owner x hx ((ConnectionGroup.Owns.congr he).mpr hxa))
      · exact hxg (owner x hx ((ConnectionGroup.Owns.congr he).mpr hxa))
    · intro c hc c' hc'
      rcases List.mem_append.mp hc with hc | hc
      · exact hap.2 c hc c' hc'
      · rw [List.mem_singleton.mp hc]
        exact ((h.wf x hx).connRefs_lt c' hc').ne'
  wf := by
    intro x hx
    rw [nextRef]
    rw [groups] at hx
    rcases Keyed.mem_put.mp hx with ⟨rfl, _⟩ | ⟨hx, _⟩
    · exact (h.wf g mem).join fresh room
    · exact (GroupEdit.self x).wf (h.wf x hx) (Nat.le_succ _)
  table := by rw [groups, Keyed.length_put]; exact h.table

theorem inv_create {s s' : State} (h : Inv s) {rest : List ConnectionGroup}
    {clientId random : IdHalf} {ts : ℤ} {addr : SockaddrStorage} (sublist : rest.Sublist s.groups)
    (room : rest.length < maxGroups) (fresh : ∀ x ∈ rest, ¬ x.Owns addr)
    (groups : s'.groups = rest ++ [ConnectionGroup.create s.nextRef clientId random ts addr])
    (nextRef : s'.nextRef = s.nextRef + 1) : Inv s' where
  refs := by
    rw [groups, List.map_append, List.nodup_append]
    refine ⟨(sublist.map _).nodup h.refs, List.nodup_singleton _, ?_⟩
    intro r hr r' hr' heq
    obtain ⟨g, hg, rfl⟩ := List.mem_map.mp hr
    rw [List.map_singleton, List.mem_singleton] at hr'
    have := (h.wf g (sublist.subset hg)).ref_lt
    have : g.ref = s.nextRef := heq.trans hr'
    omega
  apart := by
    rw [groups, List.pairwise_append]
    refine ⟨h.apart.sublist sublist, List.pairwise_singleton _ _, ?_⟩
    intro x hx g hg
    rw [List.mem_singleton.mp hg]
    refine ⟨?_, fun c _ c' hc' => absurd hc' List.not_mem_nil⟩
    rintro a hxa (⟨c, hc, _⟩ | he)
    · exact absurd hc List.not_mem_nil
    · exact fresh x hx ((ConnectionGroup.Owns.congr he).mpr hxa)
  wf := by
    intro g hg
    rw [nextRef]
    rw [groups] at hg
    rcases List.mem_append.mp hg with hg | hg
    · exact (GroupEdit.self g).wf (h.wf g (sublist.subset hg)) (Nat.le_succ _)
    · rw [List.mem_singleton.mp hg]
      exact ⟨Nat.lt_succ_self _, List.nodup_nil, List.nodup_nil,
        fun c hc => absurd hc List.not_mem_nil, Nat.zero_le _,
        fun c hc => absurd hc List.not_mem_nil, fun hs => absurd hs (by show ¬ (0 : ℤ) ≤ -1; decide)⟩
  table := by
    rw [groups, List.length_append, List.length_singleton]
    exact room

theorem RegStep.inv {s s' : State} (h : Inv s) (hs : RegStep s s') : Inv s' := by
  cases hs with
  | narrow groups nextRef => exact inv_narrow h groups nextRef
  | join mem owner fresh room groups nextRef =>
    exact inv_join h mem owner fresh room groups nextRef
  | create sublist room fresh groups nextRef =>
    exact inv_create h sublist room fresh groups nextRef

/-! ## The edits the receiver makes -/

/-- Contents of connections change, but neither identities nor addresses. -/
theorem keys_map_sublist {conns : List Connection} {f : Connection → Connection}
    (hf : ∀ c ∈ conns, (f c).key = c.key) :
    ((conns.map f).map Connection.key).Sublist (conns.map Connection.key) := by
  rw [List.map_map]
  have : conns.map (Connection.key ∘ f) = conns.map Connection.key := List.map_congr_left hf
  rw [this]

theorem Connection.SameButStats.key {c c' : Connection} (h : c.SameButStats c') : c'.key = c.key := by
  unfold Connection.key
  rw [h.ref, h.addr]

theorem Connection.SameButStats.inRange {c c' : Connection} (h : c.SameButStats c')
    (hc : c.InRange) : c'.InRange := by
  unfold Connection.InRange
  rw [h.recvIdx]
  exact hc

theorem edit_noteAck (g : ConnectionGroup) (buf : Bytes) : GroupEdit (g.noteAck buf) g := by
  rw [g.noteAck_eq]
  exact ⟨rfl, rfl, rfl, List.Sublist.refl _, g.owns_lastAddr, fun h => h, fun h => h⟩

theorem edit_sameButQuality {g g' : ConnectionGroup} (h : g.SameButQuality g') : GroupEdit g' g := by
  obtain ⟨⟨f, hf, hconns⟩, hg⟩ := h
  have hkeys : (g'.conns.map Connection.key).Sublist (g.conns.map Connection.key) := by
    rw [hconns]
    exact keys_map_sublist fun c _ => (hf c).key
  have hrange : (∀ c ∈ g.conns, c.InRange) → ∀ c ∈ g'.conns, c.InRange := by
    intro hr c' hc'
    rw [hconns] at hc'
    obtain ⟨c, hc, rfl⟩ := List.mem_map.mp hc'
    exact (hf c).inRange (hr c hc)
  rw [hg]
  exact ⟨rfl, rfl, rfl, hkeys, g.owns_lastAddr, hrange, fun h => h⟩

theorem GroupEdit.trans {g g' g'' : ConnectionGroup} (h : GroupEdit g' g) (h' : GroupEdit g'' g') :
    GroupEdit g'' g where
  ref := h'.ref.trans h.ref
  id := h'.id.trans h.id
  createdAt := h'.createdAt.trans h.createdAt
  keys := h'.keys.trans h.keys
  lastAddr := h.owns h'.lastAddr
  inRange := fun hr => h'.inRange (h.inRange hr)
  socket := fun hs => h'.socket (h.socket hs)

theorem edit_keptConns (g : ConnectionGroup) (t : ℤ) :
    GroupEdit { g with conns := keptConns t g.conns } g where
  ref := rfl
  id := rfl
  createdAt := rfl
  keys := by
    have hkey : ∀ c ∈ g.conns.filter fun c => !connTimedOut c t,
        (c.checkRecovery t).1.key = c.key := by
      intro c _
      unfold Connection.key
      rw [c.checkRecovery_ref, c.checkRecovery_addr]
    exact (keys_map_sublist hkey).trans (List.filter_sublist.map _)
  lastAddr := g.owns_lastAddr
  inRange := by
    intro hr c' hc'
    obtain ⟨c, hc, _, rfl⟩ := mem_keptConns.mp hc'
    unfold Connection.InRange
    rw [c.checkRecovery_recvIdx]
    exact hr c hc
  socket := fun h => h

/-! ### Packets on a connection -/

/-- The index stays below `RECV_ACK_INT`: the defensive reset is never taken. -/
theorem Connection.InRange.logPacket_recvIdx {c : Connection} (h : c.InRange) (sn : ℤ) :
    (c.logPacket sn).recvIdx = c.recvIdx + 1 := by
  obtain ⟨h0, h1⟩ := h
  simp only [recvAckInt] at h1
  show (if c.recvIdx + 1 ≤ 0 ∨ c.recvIdx + 1 > recvAckInt then 1 else c.recvIdx + 1) = _
  rw [if_neg (by simp only [recvAckInt]; omega)]

theorem Connection.InRange.registered {c : Connection} (h : c.InRange) (sn : ℤ) :
    (c.registered sn).InRange := by
  have hidx := h.logPacket_recvIdx sn
  obtain ⟨h0, h1⟩ := h
  unfold Connection.registered
  by_cases hlast : (c.logPacket sn).recvIdx = recvAckInt
  · rw [if_pos hlast]
    exact ⟨le_refl _, by show (0 : ℤ) < recvAckInt; decide⟩
  · rw [if_neg hlast]
    unfold Connection.InRange
    rw [hidx] at hlast ⊢
    omega

theorem Connection.InRange.received {c : Connection} (h : c.InRange) (buf : Bytes) (ts : ℤ) :
    (c.received buf ts).InRange := by
  have htouch : (c.touch ts).1.InRange := by
    unfold Connection.InRange
    rw [c.touch_eq]
    exact h
  unfold Connection.received
  split_ifs
  · exact htouch.registered _
  · exact htouch

variable {g : ConnectionGroup} {c : Connection} {buf : Bytes} {addr : SockaddrStorage} {ts : ℤ}
  {env : PacketEnv}

theorem edit_onPacket (hn : (g.conns.map Connection.ref).Nodup) (hc : c ∈ g.conns)
    (ha : addressesEqual c.addr addr = true) :
    GroupEdit (onPacket g c buf addr ts env).group g := by
  have hvia : ConnsVia (writeConn (c.received buf ts)) g (onPacket g c buf addr ts env).group :=
    onPacket_conns hn hc
  obtain ⟨f, hf, hconns⟩ := hvia
  have hkey : ∀ x ∈ g.conns, (f x).key = x.key := by
    intro x hx
    rw [(hf x).key]
    unfold writeConn
    rw [c.received_ref]
    split_ifs with h
    · rw [Keyed.eq_of_key_eq hn hx hc h]
      unfold Connection.key
      rw [c.received_ref, c.received_addr]
    · rfl
  have hframe := onPacket_frame g c buf addr ts env
  constructor
  · rw [hframe]
  · rw [hframe]
  · rw [hframe]
  · rw [hconns]
    exact keys_map_sublist hkey
  · rw [hframe]
    dsimp only
    split_ifs
    · exact Or.inl ⟨c, hc, ha⟩
    · exact g.owns_lastAddr
  · intro hr x' hx'
    rw [hconns] at hx'
    obtain ⟨x, hx, rfl⟩ := List.mem_map.mp hx'
    apply (hf x).inRange
    unfold writeConn
    split_ifs
    · exact (hr c hc).received buf ts
    · exact hr x hx
  · rw [hframe]
    intro hs h0
    show (g.dataSeen || carriesData buf) = true
    rw [hs h0, Bool.true_or]

/-- Opening the socket of a group that has seen data is an edit. -/
theorem edit_withSocket (env : SocketEnv) (hd : g.dataSeen = true) :
    GroupEdit (g.withSocket env) g := by
  unfold ConnectionGroup.withSocket
  split_ifs
  · exact GroupEdit.self g
  · exact ⟨rfl, rfl, rfl, List.Sublist.refl _, g.owns_lastAddr, fun h => h, fun _ _ => hd⟩

theorem edit_afterPacket (hn : (g.conns.map Connection.ref).Nodup) (hc : c ∈ g.conns)
    (ha : addressesEqual c.addr addr = true) {g' : ConnectionGroup}
    (h : afterPacket g c buf addr ts env = some g') : GroupEdit g' g := by
  have hon : GroupEdit (onPacket g c buf addr ts env).group g := edit_onPacket hn hc ha
  unfold afterPacket at h
  dsimp only at h
  split_ifs at h with hr hs
  · rw [← Option.some.inj h]
    have hd : (onPacket g c buf addr ts env).group.dataSeen = true := by
      rw [relays, Bool.and_eq_true] at hr
      rw [onPacket_dataSeen, hr.1, Bool.or_true]
    exact hon.trans (edit_withSocket _ hd)
  · rw [← Option.some.inj h]
    exact hon

theorem edit_lastAddr (hc : c ∈ g.conns) (ha : addressesEqual c.addr addr = true) :
    GroupEdit { g with lastAddr := addr } g :=
  ⟨rfl, rfl, rfl, List.Sublist.refl _, Or.inl ⟨c, hc, ha⟩, fun h => h, fun h => h⟩

/-! ## The steps of the receiver -/

variable {s : State}

theorem find_conn {conns : List Connection} (h : conns.find? (fun c => addressesEqual c.addr addr) =
    some c) : c ∈ conns ∧ addressesEqual c.addr addr = true :=
  ⟨List.mem_of_find?_eq_some h, by simpa using List.find?_some h⟩

/-- Where `find_by_address` finds a connection, and that connection's address. -/
theorem findByAddress_conn (h : findByAddress s.groups addr = some (g, some c)) :
    g ∈ s.groups ∧ c ∈ g.conns ∧ addressesEqual c.addr addr = true := by
  obtain ⟨hg, hfind, _⟩ := findByAddress_eq_some h
  exact ⟨hg, find_conn hfind⟩

theorem afterEviction_sublist (s : State) : s.afterEviction.Sublist s.groups := by
  unfold State.afterEviction
  cases s.victim with
  | none => exact List.Sublist.refl _
  | some v => exact Keyed.remove_sublist

/-- The table has room once the victim is gone. -/
theorem length_afterEviction_lt (h : Inv s)
    (hroom : ¬ (s.groups.length ≥ maxGroups ∧ oldestPending s.groups = none)) :
    s.afterEviction.length < maxGroups := by
  have htable := h.table
  unfold State.afterEviction State.victim
  by_cases hfull : s.groups.length ≥ maxGroups
  · rw [if_pos hfull]
    cases hv : oldestPending s.groups with
    | none => exact absurd ⟨hfull, hv⟩ hroom
    | some v =>
      have := Keyed.length_remove_of_mem h.refs (oldestPending_eq_some hv).1
      show (Keyed.remove ConnectionGroup.ref v.ref s.groups).length < maxGroups
      omega
  · rw [if_neg hfull]
    show s.groups.length < maxGroups
    omega

theorem regStep_registerGroup (h : Inv s) (addr : SockaddrStorage) (buffer : Mem) (ts : ℤ)
    (env : PacketEnv) : RegStep s (registerGroup s addr buffer ts env).2.1 := by
  obtain ⟨⟨_, _, hn⟩, hcase⟩ := registerGroup_cases s addr buffer ts env
  have hevict : ∀ s' : State, s'.groups = s.afterEviction → s.nextRef ≤ s'.nextRef → RegStep s s' := by
    intro s' hs' hn'
    refine .narrow ?_ hn'
    rw [hs']
    exact Narrowing.of_sublist GroupEdit.self (afterEviction_sublist s)
  cases ho : regGroupOutcome s addr ts env with
  | throttled => rw [ho] at hcase; exact .of_groups_eq hcase.2.1 hn
  | tableFull => rw [ho] at hcase; exact .of_groups_eq hcase.2.1 hn
  | dupAddr => rw [ho] at hcase; exact hevict _ hcase.2.1 hn
  | sendError => rw [ho] at hcase; exact hevict _ hcase.2.1 hn
  | registered =>
    rw [ho] at hcase
    obtain ⟨_, hroom, hfresh, _⟩ := regGroupOutcome_eq_registered_iff.mp ho
    exact .create (afterEviction_sublist s) (length_afterEviction_lt h hroom)
      (findByAddress_eq_none_iff.mp hfresh) hcase.2.1 hcase.2.2.1

/-- A REG2 that `register_connection` admits comes from an address that only the
    joined group may own, and from no connection of it. -/
theorem connJoined_fresh (h : Inv s) (hg : g ∈ s.groups)
    (hsame : ∀ p, findByAddress s.groups addr = some p → p.1 = g)
    (hnone : (findByAddress s.groups addr).bind Prod.snd = none) :
    (∀ x ∈ s.groups, x.Owns addr → x = g) ∧ ∀ c ∈ g.conns, addressesEqual c.addr addr = false := by
  cases hf : findByAddress s.groups addr with
  | none =>
    have hno := findByAddress_eq_none_iff.mp hf
    refine ⟨fun x hx ho => absurd ho (hno x hx), fun c hc => ?_⟩
    by_contra he
    exact hno g hg (Or.inl ⟨c, hc, by simpa using he⟩)
  | some p =>
    obtain ⟨hp, hfind, howns⟩ := findByAddress_eq_some (show findByAddress s.groups addr = some (p.1, p.2) from hf)
    have hpg := hsame p hf
    rw [hf] at hnone
    refine ⟨fun x hx ho => (h.owner_unique hx hp ho howns).trans hpg, ?_⟩
    rw [← hpg]
    intro c hc
    have hnone' : p.2 = none := hnone
    rw [hnone', List.find?_eq_none] at hfind
    simpa using hfind c hc

theorem regStep_registerConnection (h : Inv s) (addr : SockaddrStorage) (buffer : Mem) (ts : ℤ)
    (env : PacketEnv) : RegStep s (registerConnection s addr buffer ts env).2.1 := by
  obtain ⟨_, _, hn⟩ := registerConnection_frame s addr buffer ts env
  rcases registerConnection_cases s h.refs addr buffer ts env with
    ⟨_, hgroups, _⟩ | ⟨g, hid, hsame, _, _, _, hjoin | ⟨c, hrep⟩⟩
  · exact .of_groups_eq hgroups hn
  · have hg := (findGroupById_eq_some hid).1
    obtain ⟨hnone, hroom, hnext, hgroups⟩ := hjoin
    obtain ⟨howner, hfresh⟩ := connJoined_fresh h hg hsame hnone
    exact .join hg howner hfresh hroom hgroups hnext
  · obtain ⟨hfind, hgroups⟩ := hrep
    obtain ⟨hg, hc, ha⟩ := findByAddress_conn hfind
    refine .narrow ?_ hn
    rw [hgroups]
    refine Narrowing.of_update (o := some { g with lastAddr := addr }) GroupEdit.self h.refs hg ?_
    rintro g' ⟨⟩
    exact ⟨rfl, edit_lastAddr hc ha⟩

theorem regStep_processSinglePacket (h : Inv s) (buf : Bytes) (addr : SockaddrStorage) (ts : ℤ)
    (env : PacketEnv) : RegStep s (processSinglePacket s buf addr ts env).1 := by
  cases packetCase s buf addr with
  | reg1 h1 =>
    rw [processSinglePacket_reg1 h1]
    exact regStep_registerGroup h addr (mem buf) ts env
  | reg2 h2 =>
    rw [processSinglePacket_reg2 h2]
    exact regStep_registerConnection h addr (mem buf) ts env
  | @conn g c h1 h2 hf =>
    obtain ⟨hg, hc, ha⟩ := findByAddress_conn hf
    refine .narrow ?_ (processSinglePacket_conn_frame h1 h2 hf).2.2.ge
    rw [processSinglePacket_conn h1 h2 hf]
    apply Narrowing.of_update GroupEdit.self h.refs hg
    intro g' hg'
    exact ⟨afterPacket_ref hg', edit_afterPacket (h.wf g hg).connRefs hc ha hg'⟩
  | stranger h1 h2 hf =>
    rw [processSinglePacket_stranger h1 h2 hf]
    exact .of_groups_eq rfl le_rfl

/-- **The receiver refines the registry's transitions.** -/
theorem step_regStep (h : Inv s) (op : Op) : RegStep s (step s op).1 := by
  cases op with
  | packet buf addr ts env => exact regStep_processSinglePacket h buf addr ts env
  | srtData ref env =>
    simp only [step]
    cases hget : Keyed.get ConnectionGroup.ref ref s.groups with
    | none => exact .of_groups_eq rfl le_rfl
    | some g =>
      refine .narrow ?_ (handleSrtData_frame s g env).2.ge
      have hupd : (handleSrtData s g env).1.groups = Keyed.update ConnectionGroup.ref g.ref
          (if g.endsOn env then none else some (g.onServerPacket env)) s.groups := by
        rw [handleSrtData_groups]
        split_ifs <;> rfl
      rw [hupd]
      apply Narrowing.of_update GroupEdit.self h.refs (Keyed.get_mem hget)
      intro g' hg'
      split_ifs at hg'
      rw [← Option.some.inj hg']
      have hedit : GroupEdit (g.onServerPacket env) g := by
        unfold ConnectionGroup.onServerPacket
        cases env.recv with
        | none => exact GroupEdit.self g
        | some datagram => exact edit_noteAck g _
      exact ⟨hedit.ref, hedit⟩
  | evict =>
    simp only [step, State.evictOldestPendingGroup]
    cases oldestPending s.groups with
    | none => exact .of_groups_eq rfl le_rfl
    | some v => exact .narrow (Narrowing.of_sublist GroupEdit.self Keyed.remove_sublist) le_rfl
  | cleanup t ret =>
    refine .narrow ?_ (cleanupInactive_frame s t ret).2.1.ge
    rw [step, cleanupInactive_groups]
    split_ifs
    · exact Narrowing.of_sublist GroupEdit.self (List.Sublist.refl _)
    · apply Narrowing.of_filterMap
      intro g _ g' hg'
      rw [reapGroup_eq_some hg']
      exact edit_keptConns g t
  | limiterCleanup t => exact .of_groups_eq rfl le_rfl
  | quality t ms =>
    refine .narrow ?_ le_rfl
    apply Narrowing.of_map
    intro g _
    exact (edit_sameButQuality (evaluateGroup_frame g t _)).trans
      (edit_sameButQuality (adjustWeights_frame _ t))
  | count what => exact .of_groups_eq rfl le_rfl

/-- The invariant holds in every reachable state. -/
theorem reachable_inv (h : Reachable s) : Inv s :=
  receiver.invariant inv_init (fun _ op hs => (step_regStep hs op).inv hs) h

theorem run_inv (h : Inv s) (ops : List Op) : Inv (receiver.run s ops) :=
  @Machine.run_invariant _ _ _ receiver Inv (fun _ op hs => (step_regStep hs op).inv hs) s h ops

/-! ## Identities -/

/-- A step hands out at most the next identity and never an old one. -/
theorem RegStep.exists_ref {s s' : State} (h : RegStep s s') {g' : ConnectionGroup}
    (hg' : g' ∈ s'.groups) : (∃ g ∈ s.groups, g.ref = g'.ref) ∨ g'.ref = s.nextRef := by
  cases h with
  | narrow groups _ =>
    obtain ⟨g, hg, he⟩ := Narrowing.exists_of_mem groups hg'
    exact Or.inl ⟨g, hg, he.ref.symm⟩
  | join mem _ _ _ groups _ =>
    rw [groups] at hg'
    rcases Keyed.mem_put.mp hg' with ⟨rfl, _⟩ | ⟨hx, _⟩
    · exact Or.inl ⟨_, mem, rfl⟩
    · exact Or.inl ⟨g', hx, rfl⟩
  | create sublist _ _ groups _ =>
    rw [groups] at hg'
    rcases List.mem_append.mp hg' with hx | hx
    · exact Or.inl ⟨g', sublist.subset hx, rfl⟩
    · rw [List.mem_singleton.mp hx]
      exact Or.inr rfl

theorem RegStep.nextRef_le {s s' : State} (h : RegStep s s') : s.nextRef ≤ s'.nextRef := by
  cases h with
  | narrow _ nextRef => exact nextRef
  | join _ _ _ _ _ nextRef => omega
  | create _ _ _ _ nextRef => omega

theorem run_nextRef_le {s : State} (h : Inv s) (ops : List Op) :
    s.nextRef ≤ (receiver.run s ops).nextRef := by
  induction ops generalizing s with
  | nil => exact le_rfl
  | cons op ops ih =>
    have hstep := step_regStep h op
    exact hstep.nextRef_le.trans (ih (hstep.inv h))

/-- A group that has left the registry never comes back. -/
theorem run_gone {s : State} (h : Inv s) {r : ℕ} (hr : r < s.nextRef)
    (hgone : ∀ g ∈ s.groups, g.ref ≠ r) (ops : List Op) :
    ∀ g ∈ (receiver.run s ops).groups, g.ref ≠ r := by
  induction ops generalizing s with
  | nil => exact hgone
  | cons op ops ih =>
    have hstep := step_regStep h op
    refine ih (hstep.inv h) (hr.trans_le hstep.nextRef_le) ?_
    intro g' hg' he
    rcases hstep.exists_ref hg' with ⟨g, hg, hgr⟩ | hnew
    · exact hgone g hg (hgr.trans he)
    · omega

/-! ## Looking a group up by its id -/

/-- What never changes of a group: its identity and its id. -/
def ConnectionGroup.key (g : ConnectionGroup) : ℕ × SrtlaId := (g.ref, g.id)

/-- The first group with an id is the first as long as it is there, when groups
    are dropped. -/
theorem findGroupById_of_sublist {groups' groups : List ConnectionGroup} {id : SrtlaId}
    {g g' : ConnectionGroup} (hn : (groups.map ConnectionGroup.ref).Nodup)
    (hs : (groups'.map ConnectionGroup.key).Sublist (groups.map ConnectionGroup.key))
    (hf : findGroupById groups id = some g) (hg' : g' ∈ groups') (href : g'.ref = g.ref) :
    findGroupById groups' id = some g' := by
  have hrefs : ∀ l : List ConnectionGroup,
      (l.map ConnectionGroup.key).map Prod.fst = l.map ConnectionGroup.ref := fun l => by
    rw [List.map_map]
    rfl
  have hfind : ∀ l : List ConnectionGroup,
      (l.map ConnectionGroup.key).find? (fun k => constantTimeCompare k.2 id == 0) =
        (findGroupById l id).map ConnectionGroup.key := fun l => by
    rw [List.find?_map]
    rfl
  have hkeys : (groups.map ConnectionGroup.key).Nodup :=
    List.Nodup.of_map Prod.fst (by rw [hrefs]; exact hn)
  have hn' : (groups'.map ConnectionGroup.ref).Nodup := by
    rw [← hrefs]
    exact (hs.map Prod.fst).nodup (by rw [hrefs]; exact hn)
  -- the two groups have one key
  have hkey : g'.key = g.key := by
    obtain ⟨x, hx, hxk⟩ := List.mem_map.mp (hs.subset (List.mem_map_of_mem hg'))
    rw [← hxk, Keyed.eq_of_key_eq hn hx (findGroupById_eq_some hf).1]
    exact (congrArg Prod.fst hxk).trans href
  have hfind' := Narrowing.find?_of_sublist hs hkeys (by rw [hfind, hf]; rfl)
    (by rw [← hkey]; exact List.mem_map_of_mem hg')
  rw [hfind] at hfind'
  obtain ⟨x, hx, hxk⟩ := Option.map_eq_some_iff.mp hfind'
  rw [hx, Keyed.eq_of_key_eq hn' (findGroupById_eq_some hx).1 hg'
    (congrArg Prod.fst (hxk.trans hkey.symm))]

/-- A group that is found by an id is found by it until it is removed. -/
theorem RegStep.find_id {s s' : State} (h : Inv s) (hs : RegStep s s') {id : SrtlaId}
    {g g' : ConnectionGroup} (hf : findGroupById s.groups id = some g) (hg' : g' ∈ s'.groups)
    (href : g'.ref = g.ref) : findGroupById s'.groups id = some g' := by
  cases hs with
  | narrow groups _ =>
    refine findGroupById_of_sublist h.refs (Narrowing.map_sublist groups fun g' g he => ?_) hf hg' href
    rw [ConnectionGroup.key, ConnectionGroup.key, he.ref, he.id]
  | @join x addr ts mem _ _ _ groups _ =>
    refine findGroupById_of_sublist h.refs ?_ hf hg' href
    rw [groups, Keyed.map_put_eq]
    intro y hy hk
    rw [Keyed.eq_of_key_eq h.refs hy mem hk]
    rfl
  | create sublist _ _ groups _ =>
    rw [groups] at hg' ⊢
    rcases List.mem_append.mp hg' with hg' | hg'
    · have := findGroupById_of_sublist h.refs (sublist.map _) hf hg' href
      rw [findGroupById] at this ⊢
      rw [List.find?_append, this, Option.some_or]
    · -- the new group has an identity of its own
      have hlt := (h.wf g (findGroupById_eq_some hf).1).ref_lt
      rw [← href, List.mem_singleton.mp hg'] at hlt
      exact absurd hlt (lt_irrefl _)

end Srtla.Receiver
