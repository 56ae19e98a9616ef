import Srtla.Receiver.GroupStep

/-!
# The life of a connection

Where the groups and connections after a step come from. A connection joins with
a REG2; from then on only packets from its own address change when it last
received something and what it has logged (`Op.onConn`).

* `step_origin`: every group after a step was there before or is new, and so is
  every connection, with the contents that `Op.onConn` says.
-/

namespace Srtla.Receiver

open Lib

/-- The part of a connection that the timeouts and the ACKs depend on. -/
structure Connection.SameCore (c c' : Connection) : Prop where
  ref : c'.ref = c.ref
  addr : c'.addr = c.addr
  lastRcvd : c'.lastRcvd = c.lastRcvd
  recvIdx : c'.recvIdx = c.recvIdx
  recvLog : c'.recvLog = c.recvLog

/-- The clock reading an input carries. -/
def Op.time : Op → Option ℤ
  | .packet _ _ ts _ => some ts
  | .cleanup t _ => some t
  | _ => none

/-- What an input does to a connection it keeps: a packet from its address that is
    no registration is received. -/
def Op.onConn : Op → Connection → Connection
  | .packet buf addr ts _, c =>
    if isSrtlaReg1 (mem buf) buf.length || isSrtlaReg2 (mem buf) buf.length then c
    else if addressesEqual c.addr addr then c.received buf ts
    else c
  | _, c => c

/-- Where a connection comes from that is now in the group `g`: it was there, or
    it has joined with a REG2 for the id by which `g` is found. -/
inductive ConnOrigin (s : State) (op : Op) (g : ConnectionGroup) (c' : Connection) : Prop
  | old {c : Connection} (mem : c ∈ g.conns) (core : (op.onConn c).SameCore c')
  | joined {buf : Bytes} {addr : SockaddrStorage} {ts : ℤ} {env : PacketEnv}
      (input : op = .packet buf addr ts env) (reg2 : isSrtlaReg2 (Lib.mem buf) buf.length = true)
      (found : findGroupById s.groups (readBlock (Lib.mem buf) 2 256) = some g)
      (eq : c' = .create s.nextRef addr ts)

/-- Where a group comes from. -/
inductive GroupOrigin (s : State) (op : Op) (g' : ConnectionGroup) : Prop
  | old {g : ConnectionGroup} (mem : g ∈ s.groups) (ref : g'.ref = g.ref) (id : g'.id = g.id)
      (createdAt : g'.createdAt = g.createdAt)
      (seen : g'.dataSeen = true → g.dataSeen = true ∨ op.receivedBy g = true)
      (conns : ∀ c' ∈ g'.conns, ConnOrigin s op g c')
  | created {buf : Bytes} {addr : SockaddrStorage} {ts : ℤ} {env : PacketEnv}
      (input : op = .packet buf addr ts env) (reg1 : isSrtlaReg1 (Lib.mem buf) buf.length = true)
      (eq : g' = newGroup s addr (Lib.mem buf) ts env)

variable {s : State} {op : Op} {g g' : ConnectionGroup} {c c' c'' : Connection}

theorem Connection.SameCore.refl (c : Connection) : c.SameCore c := ⟨rfl, rfl, rfl, rfl, rfl⟩

theorem Connection.SameButStats.sameCore (h : c.SameButStats c') : c.SameCore c' :=
  ⟨h.ref, h.addr, h.lastRcvd, h.recvIdx, h.recvLog⟩

theorem Connection.SameCore.trans (h : c.SameCore c') (h' : c'.SameCore c'') : c.SameCore c'' :=
  ⟨h'.ref.trans h.ref, h'.addr.trans h.addr, h'.lastRcvd.trans h.lastRcvd,
    h'.recvIdx.trans h.recvIdx, h'.recvLog.trans h.recvLog⟩

@[simp] theorem Op.onConn_ref (op : Op) (c : Connection) : (op.onConn c).ref = c.ref := by
  unfold Op.onConn
  split
  · split_ifs <;> simp
  · rfl

@[simp] theorem Op.onConn_addr (op : Op) (c : Connection) : (op.onConn c).addr = c.addr := by
  unfold Op.onConn
  split
  · split_ifs <;> simp
  · rfl

/-- A packet moves the receive time to its own, or it leaves it. -/
theorem Op.onConn_lastRcvd (op : Op) (c : Connection) :
    (op.onConn c).lastRcvd = c.lastRcvd ∨ op.time = some (op.onConn c).lastRcvd := by
  unfold Op.onConn
  split
  · split_ifs
    · exact Or.inl rfl
    · exact Or.inr (by rw [Connection.received_lastRcvd]; rfl)
    · exact Or.inl rfl
  · exact Or.inl rfl

theorem Op.onConn_of_reg {buf : Bytes} {addr : SockaddrStorage} {ts : ℤ} {env : PacketEnv}
    (h : isSrtlaReg1 (mem buf) buf.length = true ∨ isSrtlaReg2 (mem buf) buf.length = true)
    (c : Connection) : (Op.packet buf addr ts env).onConn c = c := by
  unfold Op.onConn
  dsimp only
  rw [if_pos (by simpa using h)]

theorem Op.onConn_of_ne {buf : Bytes} {addr : SockaddrStorage} {ts : ℤ} {env : PacketEnv}
    (h : addressesEqual c.addr addr = false) : (Op.packet buf addr ts env).onConn c = c := by
  unfold Op.onConn
  dsimp only
  split_ifs with h1 h2
  · rfl
  · rw [h] at h2; cases h2
  · rfl

theorem Op.onConn_of_eq {buf : Bytes} {addr : SockaddrStorage} {ts : ℤ} {env : PacketEnv}
    (h1 : isSrtlaReg1 (mem buf) buf.length = false) (h2 : isSrtlaReg2 (mem buf) buf.length = false)
    (h : addressesEqual c.addr addr = true) :
    (Op.packet buf addr ts env).onConn c = c.received buf ts := by
  unfold Op.onConn
  dsimp only
  rw [h1, h2, h]
  rfl

/-! ## Origins -/

/-- A group that the input does not touch. -/
theorem GroupOrigin.same (hg : g ∈ s.groups) (hsame : ∀ c ∈ g.conns, op.onConn c = c) :
    GroupOrigin s op g := by
  refine .old hg rfl rfl rfl Or.inl ?_
  intro c hc
  exact .old hc (by rw [hsame c hc]; exact .refl c)

/-- A group whose connections only change in their statistics. -/
theorem GroupOrigin.of_sameButQuality (hg : g ∈ s.groups) (h : g.SameButQuality g')
    (hsame : ∀ c ∈ g.conns, op.onConn c = c) : GroupOrigin s op g' := by
  obtain ⟨⟨f, hf, hconns⟩, hg'⟩ := h
  refine .old hg (by rw [hg']) (by rw [hg']) (by rw [hg'])
    (fun h => Or.inl (by rw [hg'] at h; exact h)) ?_
  intro c' hc'
  rw [hconns] at hc'
  obtain ⟨c, hc, rfl⟩ := List.mem_map.mp hc'
  exact .old hc (by rw [hsame c hc]; exact (hf c).sameCore)

theorem origin_onPacket (h : Inv s) {buf : Bytes} {addr : SockaddrStorage} {ts : ℤ} {env : PacketEnv}
    (h1 : isSrtlaReg1 (mem buf) buf.length = false) (h2 : isSrtlaReg2 (mem buf) buf.length = false)
    (hf : findByAddress s.groups addr = some (g, some c)) :
    ∀ c' ∈ (onPacket g c buf addr ts env).group.conns,
      ∃ x ∈ g.conns, ((Op.packet buf addr ts env).onConn x).SameCore c' := by
  obtain ⟨hg, hc, ha⟩ := findByAddress_conn hf
  have hwf := h.wf g hg
  obtain ⟨f, hf, hconns⟩ := @onPacket_conns g c buf addr ts env hwf.connRefs hc
  intro c' hc'
  rw [hconns] at hc'
  obtain ⟨x, hx, rfl⟩ := List.mem_map.mp hc'
  refine ⟨x, hx, ?_⟩
  have hcore := (hf x).sameCore
  unfold writeConn at hcore
  rw [c.received_ref] at hcore
  by_cases hxc : x.ref = c.ref
  · -- the connection the packet is for
    have : x = c := Keyed.eq_of_key_eq hwf.connRefs hx hc hxc
    subst this
    rw [if_pos rfl] at hcore
    rwa [Op.onConn_of_eq h1 h2 ha]
  · -- another connection of the group, at another address
    rw [if_neg hxc] at hcore
    have hne : addressesEqual x.addr addr = false := by
      rw [← Bool.not_eq_true]
      intro hxa
      have : addressesEqual x.addr c.addr = true := by
        rw [addressesEqual_iff] at hxa ha ⊢
        exact hxa.trans ha.symm
      exact hxc (congrArg Connection.ref (hwf.conn_unique hx hc this))
    rwa [Op.onConn_of_ne hne]

/-- A group none of whose connections receives the input. -/
theorem Op.onConn_of_apart (h : op.receivedBy g = false) : ∀ c ∈ g.conns, op.onConn c = c := by
  intro c hc
  cases op with
  | packet buf addr ts env =>
    by_cases hreg : isSrtlaReg1 (mem buf) buf.length = true ∨ isSrtlaReg2 (mem buf) buf.length = true
    · exact Op.onConn_of_reg hreg c
    · push Not at hreg
      refine Op.onConn_of_ne (Bool.eq_false_iff.mpr fun ha => ?_)
      refine Bool.eq_false_iff.mp h (Op.receivedBy_eq_true_iff.mpr ⟨⟨?_, ?_⟩, c, hc, ha⟩)
      · exact Bool.eq_false_iff.mpr hreg.1
      · exact Bool.eq_false_iff.mpr hreg.2
  | srtData | evict | cleanup | limiterCleanup | quality | count => rfl

/-- **Where everything after a step comes from.** -/
theorem step_origin (h : Inv s) (op : Op) (hg' : g' ∈ (step s op).1.groups) : GroupOrigin s op g' := by
  cases step_groupStep h op hg' with
  | kept hg hapart => exact .same hg (Op.onConn_of_apart hapart)
  | created h1 heq => exact .created rfl h1 heq
  | joined h2 hid heq =>
    rw [heq]
    refine .old (findGroupById_eq_some hid).1 rfl rfl rfl Or.inl fun c' hc' => ?_
    rcases List.mem_append.mp hc' with hc' | hc'
    · exact .old hc' (by rw [Op.onConn_of_reg (Or.inr h2)]; exact .refl c')
    · exact .joined rfl h2 hid (List.mem_singleton.mp hc')
  | repeated h2 hf heq =>
    rw [heq]
    refine .old (findByAddress_conn hf).1 rfl rfl rfl Or.inl fun c' hc' => ?_
    exact .old hc' (by rw [Op.onConn_of_reg (Or.inr h2)]; exact .refl c')
  | @received g c buf addr ts env h1 h2 hf hafter =>
    obtain ⟨hg, hc, ha⟩ := findByAddress_conn hf
    have hrecv : (Op.packet buf addr ts env).receivedBy g = true :=
      Op.receivedBy_eq_true_iff.mpr ⟨⟨h1, h2⟩, c, hc, ha⟩
    refine .old hg (afterPacket_ref hafter) ?_ ?_ (fun _ => Or.inr hrecv) fun c' hc' => ?_
    · rw [afterPacket_frame hafter]
      exact onPacket_id g c buf addr ts env
    · rw [afterPacket_frame hafter]
      exact onPacket_createdAt g c buf addr ts env
    · rw [afterPacket_frame hafter] at hc'
      obtain ⟨x, hx, hcore⟩ := origin_onPacket h h1 h2 hf c' hc'
      exact .old hx hcore
  | server hg heq =>
    rw [heq]
    exact .old hg rfl rfl rfl Or.inl fun c hc => .old hc (.refl c)
  | @reaped g t ret hg _ heq =>
    rw [heq]
    refine .old hg rfl rfl rfl Or.inl fun c' hc' => ?_
    obtain ⟨c, hc, _, rfl⟩ := mem_keptConns.mp hc'
    exact .old hc ⟨c.checkRecovery_ref t, c.checkRecovery_addr t, c.checkRecovery_lastRcvd t,
      c.checkRecovery_recvIdx t, c.checkRecovery_recvLog t⟩
  | @assessed g t ms hg heq =>
    rw [heq]
    exact .of_sameButQuality hg (assess_frame g t _) fun c _ => rfl

end Srtla.Receiver
