import Srtla.System.Schedule

/-!
# Senders are never bonded together

The first half of a group id names the sender that asked for the group. Senders
with different first halves and different addresses share no group, whatever the
network does and whatever random halves the receiver draws.

* `Bonded`: the invariant of the system, over both programs and every datagram
  in flight.
* `never_bonded_together`: every connection of a group is a link of the one
  sender that the group's id names, and a sender uses either the id it started
  with or one that the receiver created for it.
-/

namespace Srtla.System

open Lib

/-! ## Types of datagrams -/

theorem getSrtType_congr {m m' : Mem} {n n' : ℤ} (hn : n < 2 ↔ n' < 2)
    (h : 2 ≤ n → m 0 = m' 0 ∧ m 1 = m' 1) : getSrtType m n = getSrtType m' n' := by
  unfold getSrtType
  by_cases h2 : n < 2
  · rw [if_pos h2, if_pos (hn.mp h2)]
  · rw [if_neg h2, if_neg (fun h => h2 (hn.mpr h))]
    exact be16_congr (h (not_lt.mp h2)).1 (h (not_lt.mp h2)).2

/-- Cutting a datagram at `MTU` bytes does not change its type. -/
theorem getSrtType_take (b : Bytes) :
    getSrtType (mem (b.take mtu)) (b.take mtu).length = getSrtType (mem b) b.length := by
  have hlen : (b.take mtu).length = min mtu b.length := List.length_take
  simp only [mtu] at hlen
  refine getSrtType_congr (by rw [mtu, hlen]; omega) fun h2 => ?_
  have hb : mem (b.take mtu ++ b.drop mtu) = mem b := by rw [List.take_append_drop]
  rw [mtu, hlen] at h2
  rw [← hb]
  exact ⟨(mem_append_left _ (by rw [mtu, hlen]; omega)).symm,
    (mem_append_left _ (by rw [mtu, hlen]; omega)).symm⟩

/-- Padding does not change the type. -/
theorem getSrtType_padWire {b : Bytes} (h : 2 ≤ b.length) :
    getSrtType (mem (padWire b)) (padWire b).length = getSrtType (mem b) b.length := by
  unfold padWire
  split_ifs
  · rfl
  · refine getSrtType_congr ?_ fun _ => ?_
    · rw [List.length_append]
      omega
    · exact ⟨mem_append_left _ (by omega), mem_append_left _ (by omega)⟩

theorem two_le_of_getSrtType {b : Bytes} (h : getSrtType (mem b) b.length ≠ 0) : 2 ≤ b.length := by
  by_contra hlt
  unfold getSrtType at h
  rw [if_pos (by omega)] at h
  exact h rfl

theorem getSrtType_of_isSrtlaReg1 {pkt : Mem} {n : ℤ} (h : isSrtlaReg1 pkt n = true) :
    getSrtType pkt n = srtlaTypeReg1 := by
  unfold isSrtlaReg1 at h
  split_ifs at h
  simpa using h

theorem getSrtType_of_isSrtlaReg2 {pkt : Mem} {n : ℤ} (h : isSrtlaReg2 pkt n = true) :
    getSrtType pkt n = srtlaTypeReg2 := by
  unfold isSrtlaReg2 at h
  split_ifs at h
  simpa using h

theorem getSrtType_of_isSrtlaKeepalive {b : Bytes}
    (h : isSrtlaKeepalive (mem b) b.length = true) :
    getSrtType (mem b) b.length = srtlaTypeKeepalive := by
  unfold isSrtlaKeepalive at h
  simpa using h

theorem getSrtType_ackFrame (c : Receiver.Connection) :
    2 ≤ c.ackFrame.length ∧ getSrtType (mem c.ackFrame) c.ackFrame.length = srtlaTypeAck := by
  have hlen : c.ackFrame.length = 4 + (c.ackFrame.length - 4) := by
    rw [Receiver.Connection.ackFrame, List.length_append, length_putBe32]
    omega
  refine ⟨by omega, ?_⟩
  unfold getSrtType
  rw [if_neg (by omega), Receiver.Connection.ackFrame, be16_append_left _ _ (by decide)]
  decide

/-! ## What the receiver sends -/

/-- What the SRT server sends to a group is no registration. -/
theorem Internal.recv {ref : ℕ} {env : Receiver.SrtEnv} {d : Bytes}
    (h : Internal (.srtData ref env) ∨
      ∃ buf addr ts penv, Receiver.Op.srtData ref env = .packet buf addr ts penv)
    (hd : env.recv = some d) : getSrtType (mem (d.take mtu)) (d.take mtu).length ≠ srtlaTypeReg2 := by
  rw [getSrtType_take]
  rcases h with h | ⟨_, _, _, _, heq⟩
  · exact (h d hd).2
  · cases heq

/-- A datagram of the receiver with the type of a REG2 answers a REG1 with the
    id of a group that is registered by the same step. -/
theorem wire_reg2 {s : Receiver.State} (h : Receiver.Inv s) {op : Receiver.Op}
    (hop : Internal op ∨ ∃ buf addr ts env, op = .packet buf addr ts env)
    {d : SockaddrStorage × Bytes} (hd : d ∈ (Receiver.step s op).2.flatMap Receiver.Effect.wire)
    (htype : getSrtType (mem d.2) d.2.length = srtlaTypeReg2) :
    ∃ buf ts env, op = .packet buf d.1 ts env ∧
      ∃ g ∈ (Receiver.step s op).1.groups, s.nextRef ≤ g.ref ∧ d.2 = reg2Frame g.id := by
  obtain ⟨e, he, hd⟩ := List.mem_flatMap.mp hd
  -- an effect of `pad_sendto` with another type
  have hpad : ∀ {site addr} {buf : Bytes} {ret}, e = .padSendto site addr buf ret → 2 ≤ buf.length →
      getSrtType (mem buf) buf.length ≠ srtlaTypeReg2 → False := by
    rintro site addr buf ret rfl hlen hne
    simp only [Receiver.Effect.wire] at hd
    split_ifs at hd
    · rw [List.mem_singleton.mp hd] at htype
      rw [getSrtType_padWire hlen] at htype
      exact hne htype
    · exact absurd hd List.not_mem_nil
  cases Receiver.step_effects h op e he with
  | @reply buf addr ts env type _ htypes =>
    refine (hpad rfl (by rw [length_putBe16]) ?_).elim
    rcases htypes with rfl | rfl | rfl <;> decide
  | @reg2 buf addr ts env _ hcreated =>
    simp only [Receiver.Effect.wire] at hd
    rw [reg2Frame, padWire_regFrame, length_regFrame] at hd
    split_ifs at hd with hret
    · rw [List.mem_singleton.mp hd]
      exact ⟨buf, ts, env, rfl, _, hcreated hret, le_refl s.nextRef, rfl⟩
    · exact absurd hd List.not_mem_nil
  | @ack buf addr ts env g c _ _ _ =>
    obtain ⟨hlen, hack⟩ :=
      getSrtType_ackFrame ((c.touch ts).1.logPacket (getSrtSn (mem buf) buf.length))
    exact (hpad rfl hlen (by rw [hack]; decide)).elim
  | echo hk =>
    have hkt := getSrtType_of_isSrtlaKeepalive hk
    exact (hpad rfl (two_le_of_getSrtType (by rw [hkt]; decide)) (by rw [hkt]; decide)).elim
  | forward => exact absurd hd List.not_mem_nil
  | @downstream ref env g datagram _ hrecv hlen =>
    simp only [srtMinLen] at hlen
    exact (hpad rfl (by omega) (Internal.recv hop hrecv)).elim
  | @broadcast ref env g datagram _ hrecv _ =>
    simp only [Receiver.Effect.wire] at hd
    obtain ⟨a, _, rfl⟩ := List.mem_map.mp hd
    exact absurd htype (Internal.recv hop hrecv)
  | keepalive => exact (hpad rfl (by rw [length_putBe16]) (by decide)).elim

/-! ## The invariant -/

variable {ι : Type*} {D : Deployment ι} {N : Net ι}

/-- A datagram of sender `i`: it comes from one of its links, and a registration
    carries an id with its first half. -/
def FromSender (D : Deployment ι) (i : ι) (d : SockaddrStorage × Bytes) : Prop :=
  d.1 ∈ D.links i ∧ ∃ id : SrtlaId, id.firstHalf = (D.cfg i).half ∧ Sender.Carries id d.2

/-- The invariant of the system. -/
structure Bonded (D : Deployment ι) (N : Net ι) : Prop where
  inv : Receiver.Inv N.receiver
  bound : ∀ i, (N.senders i).Bound (D.links i)
  half : ∀ i, (N.senders i).srtlaId.firstHalf = (D.cfg i).half
  ids : ∀ i, (N.senders i).srtlaId.secondHalf = zeroBlock 128 ∨
    ∃ e ∈ N.created, e.addr ∈ D.links i ∧ e.id = (N.senders i).srtlaId
  toReceiver : ∀ d ∈ N.toReceiver, ∃ i, FromSender D i d
  created : ∀ e ∈ N.created, isSrtlaReg1 (mem e.buf) e.buf.length = true ∧
    ∃ i, e.addr ∈ D.links i ∧ e.id.firstHalf = (D.cfg i).half
  groups : ∀ g ∈ N.receiver.groups, ∃ i, g.id.firstHalf = (D.cfg i).half ∧
    ∀ c ∈ g.conns, c.addr ∈ D.links i
  toSenders : ∀ d ∈ N.toSenders, getSrtType (mem d.2) d.2.length = srtlaTypeReg2 →
    ∃ e ∈ N.created, d = (e.addr, reg2Frame e.id)

theorem bonded_start (D : Deployment ι) : Bonded D D.start := by
  have hspec := fun i => Sender.start_spec (D.started i) (D.bound i)
  constructor
  case inv => exact Receiver.inv_init
  case bound => exact fun i => (hspec i).2
  case half =>
    intro i
    show (D.senders i).srtlaId.firstHalf = _
    rw [(hspec i).1, SrtlaId.firstHalf_ofHalves]
  case ids =>
    intro i
    show (D.senders i).srtlaId.secondHalf = _ ∨ _
    rw [(hspec i).1, SrtlaId.secondHalf_ofHalves]
    exact Or.inl rfl
  all_goals exact fun x hx => absurd hx List.not_mem_nil

/-! ## Steps of the receiver -/

/-- A REG1 that reaches the receiver carries its sender's half. -/
theorem FromSender.reg1 {i : ι} {d : SockaddrStorage × Bytes} (h : FromSender D i d)
    (h1 : isSrtlaReg1 (mem (d.2.take mtu)) (d.2.take mtu).length = true) :
    readBlock (mem (d.2.take mtu)) 2 128 = (D.cfg i).half := by
  have htype := getSrtType_of_isSrtlaReg1 h1
  rw [getSrtType_take] at htype
  obtain ⟨_, id, hhalf, heq | heq | hnot⟩ := h
  · rw [heq, reg1Frame, take_regFrame, readBlock_regFrame_half, hhalf]
  · rw [heq, reg2Frame, getSrtType_regFrame (by decide)] at htype
    exact absurd htype (by decide)
  · exact absurd htype hnot.1

/-- So does a REG2. -/
theorem FromSender.reg2 {i : ι} {d : SockaddrStorage × Bytes} (h : FromSender D i d)
    (h2 : isSrtlaReg2 (mem (d.2.take mtu)) (d.2.take mtu).length = true) :
    SrtlaId.firstHalf (readBlock (mem (d.2.take mtu)) 2 256) = (D.cfg i).half := by
  have htype := getSrtType_of_isSrtlaReg2 h2
  rw [getSrtType_take] at htype
  obtain ⟨_, id, hhalf, heq | heq | hnot⟩ := h
  · rw [heq, reg1Frame, getSrtType_regFrame (by decide)] at htype
    exact absurd htype (by decide)
  · rw [heq, reg2Frame, take_regFrame, readBlock_regFrame, hhalf]
  · exact absurd htype hnot.2

theorem ReceiverInput.packet {op : Receiver.Op} (hop : ReceiverInput N op) {buf : Bytes}
    {addr : SockaddrStorage} {ts : ℤ} {env : Receiver.PacketEnv}
    (heq : op = .packet buf addr ts env) :
    ∃ d ∈ N.toReceiver, buf = d.2.take mtu ∧ addr = d.1 := by
  rcases hop with hop | ⟨d, hd, _, _, heq'⟩
  · rw [heq] at hop
    exact hop.elim
  · rw [heq] at heq'
    cases heq'
    exact ⟨d, hd, rfl, rfl⟩

theorem Bonded.groups_step (h : Bonded D N) (hhalves : Function.Injective fun i => (D.cfg i).half)
    {op : Receiver.Op} (hop : ReceiverInput N op) :
    ∀ g' ∈ (Receiver.step N.receiver op).1.groups, ∃ i, g'.id.firstHalf = (D.cfg i).half ∧
      ∀ c ∈ g'.conns, c.addr ∈ D.links i := by
  intro g' hg'
  cases Receiver.step_origin h.inv op hg' with
  | @created buf addr ts env input reg1 eq =>
    obtain ⟨d, hd, rfl, rfl⟩ := hop.packet input
    obtain ⟨i, hfrom⟩ := h.toReceiver d hd
    refine ⟨i, ?_, ?_⟩
    · rw [eq, Receiver.newGroup, Receiver.ConnectionGroup.create, SrtlaId.firstHalf_ofHalves]
      exact hfrom.reg1 reg1
    · rw [eq]
      exact fun c hc => absurd hc List.not_mem_nil
  | @old g hg _ hid _ _ hconns =>
    obtain ⟨i, hhalf, hlinks⟩ := h.groups g hg
    refine ⟨i, by rw [hid]; exact hhalf, ?_⟩
    intro c' hc'
    cases hconns c' hc' with
    | @old c hc hcore =>
      rw [hcore.addr, op.onConn_addr]
      exact hlinks c hc
    | joined input reg2 found eq =>
      -- the REG2 names the group by an id of its own sender
      obtain ⟨d, hd, rfl, rfl⟩ := hop.packet input
      obtain ⟨j, hfrom⟩ := h.toReceiver d hd
      have hj := hfrom.reg2 reg2
      rw [← (Receiver.findGroupById_eq_some found).2, hhalf] at hj
      rw [eq, hhalves hj]
      exact hfrom.1

theorem Bonded.created_step (h : Bonded D N) {op : Receiver.Op} (hop : ReceiverInput N op) :
    ∀ e ∈ creations N.receiver (Receiver.step N.receiver op).1 op,
      isSrtlaReg1 (mem e.buf) e.buf.length = true ∧
        ∃ i, e.addr ∈ D.links i ∧ e.id.firstHalf = (D.cfg i).half := by
  intro e he
  unfold creations at he
  split at he
  · rename_i buf addr ts env
    obtain ⟨g, hg, rfl⟩ := List.mem_map.mp he
    rw [List.mem_filter, decide_eq_true_eq] at hg
    cases Receiver.step_origin h.inv _ hg.1 with
    | @old g₀ hg₀ href =>
      have := (h.inv.wf g₀ hg₀).ref_lt
      omega
    | @created buf' addr' ts' env' input reg1 eq =>
      cases input
      obtain ⟨d, hd, rfl, rfl⟩ := hop.packet rfl
      obtain ⟨i, hfrom⟩ := h.toReceiver d hd
      refine ⟨reg1, i, hfrom.1, ?_⟩
      rw [eq, Receiver.newGroup, Receiver.ConnectionGroup.create, SrtlaId.firstHalf_ofHalves]
      exact hfrom.reg1 reg1
  · exact absurd he List.not_mem_nil

theorem Bonded.afterReceiver (h : Bonded D N)
    (hhalves : Function.Injective fun i => (D.cfg i).half) {op : Receiver.Op}
    (hop : ReceiverInput N op) : Bonded D (N.afterReceiver op) where
  inv := (Receiver.step_regStep h.inv op).inv h.inv
  bound := h.bound
  half := h.half
  ids := by
    intro i
    rcases h.ids i with hz | ⟨e, he, hlink⟩
    · exact Or.inl hz
    · exact Or.inr ⟨e, List.mem_append_left _ he, hlink⟩
  toReceiver := h.toReceiver
  created := by
    intro e he
    rcases List.mem_append.mp he with he | he
    · exact h.created e he
    · exact h.created_step hop e he
  groups := h.groups_step hhalves hop
  toSenders := by
    intro d hd htype
    rcases List.mem_append.mp hd with hd | hd
    · obtain ⟨e, he, heq⟩ := h.toSenders d hd htype
      exact ⟨e, List.mem_append_left _ he, heq⟩
    · have hkind : Internal op ∨ ∃ buf addr ts env, op = .packet buf addr ts env :=
        hop.imp_right fun ⟨_, _, ts, env, heq⟩ => ⟨_, _, ts, env, heq⟩
      obtain ⟨buf, ts, env, rfl, g, hg, href, hframe⟩ := wire_reg2 h.inv hkind hd htype
      refine ⟨⟨d.1, buf, g.id⟩, List.mem_append_right _ ?_, Prod.ext rfl hframe⟩
      exact List.mem_map.mpr ⟨g, List.mem_filter.mpr ⟨hg, decide_eq_true href⟩, rfl⟩

/-! ## Steps of a sender -/

/-- The id that a link reads from a REG2 is that of a group created for a REG1
    of the same sender. -/
theorem Bonded.adopted (h : Bonded D N)
    (hlinks : ∀ i j, i ≠ j → ∀ a ∈ D.links i, ∀ b ∈ D.links j, addressesEqual a b = false)
    {i : ι} {ref : ℕ} {d : SockaddrStorage × Bytes} {m : Mem} {ts : ℤ} {ret : ℕ → ℤ} {fuel : ℕ}
    (he : (Act.deliver i ref d m ts ret fuel).Enabled D.links N)
    (htype : getSrtType m (received d.2) = srtlaTypeReg2) :
    ∃ e ∈ N.created, e.addr ∈ D.links i ∧ e.id = readBlock m 2 256 := by
  obtain ⟨hd, ⟨c, hc, _, hfd, haddr⟩, hm⟩ := he
  have hreceived : received d.2 = min d.2.length 1500 := rfl
  have hdtype : getSrtType (mem d.2) d.2.length = srtlaTypeReg2 := by
    rw [← htype]
    refine (getSrtType_congr (by omega) fun h2 => ?_).symm
    exact ⟨hm 0 (by omega), hm 1 (by omega)⟩
  obtain ⟨e, hecreated, rfl⟩ := h.toSenders d hd hdtype
  refine ⟨e, hecreated, ?_, ?_⟩
  · -- the datagram went to the address of the REG1, which is this sender's
    obtain ⟨_, j, hj, _⟩ := h.created e hecreated
    by_cases hij : i = j
    · rw [hij]
      exact hj
    · rw [hlinks i j hij c.addr (h.bound i c hc hfd) e.addr hj] at haddr
      cases haddr
  · have hlen := length_regFrame srtlaTypeReg2 e.id
    have hread : readBlock (mem (reg2Frame e.id)) 2 256 = e.id := readBlock_regFrame _ _
    rw [← hread]
    refine Block.ext (window_congr fun k hk => (hm (2 + k) ?_).symm)
    show 2 + k < min (reg2Frame e.id).length 1500
    rw [reg2Frame, hlen]
    omega

variable [DecidableEq ι]

theorem Bonded.afterSender (h : Bonded D N)
    (hlinks : ∀ i j, i ≠ j → ∀ a ∈ D.links i, ∀ b ∈ D.links j, addressesEqual a b = false)
    {i : ι} {op : Sender.Op} {r : Sender.State × List Sender.Effect}
    (hop : SenderInput D.links N i op) (hstep : Sender.step (N.senders i) op = some r) :
    Bonded D (N.afterSender i r) := by
  have hid := Sender.step_srtlaId hstep
  have hbound := (h.bound i).step hstep hop.housekeeping
  have hhalf : r.1.srtlaId.firstHalf = (D.cfg i).half := by
    rcases hid with heq | ⟨_, m, _, _, _, _, _, ⟨_, _, _, hread⟩, heq⟩
    · rw [heq]
      exact h.half i
    · rw [heq, SrtlaId.firstHalf_readBlock, hread]
      exact h.half i
  have hids : r.1.srtlaId.secondHalf = zeroBlock 128 ∨
      ∃ e ∈ N.created, e.addr ∈ D.links i ∧ e.id = r.1.srtlaId := by
    rcases hid with heq | ⟨ref, m, n, ts, ret, fuel, rfl, ⟨_, htype, _, _⟩, heq⟩
    · rw [heq]
      exact h.ids i
    · rw [heq]
      rcases hop with hop | ⟨_, d, _, _, _, _, hinput, he⟩
      · exact hop.elim
      · cases hinput
        exact Or.inr (h.adopted hlinks he htype)
  -- the other senders are as before
  have hother : ∀ {P : ι → Sender.State → Prop}, P i r.1 → (∀ j, P j (N.senders j)) →
      ∀ j, P j ((N.afterSender i r).senders j) := by
    intro P hi hall j
    by_cases hj : j = i
    · subst hj
      simpa [Net.afterSender] using hi
    · simpa [Net.afterSender, hj] using hall j
  refine ⟨h.inv, ?_, ?_, ?_, ?_, h.created, h.groups, h.toSenders⟩
  · exact @hother (fun j s => s.Bound (D.links j)) hbound h.bound
  · exact @hother (fun j s => s.srtlaId.firstHalf = (D.cfg j).half) hhalf h.half
  · exact @hother (fun j s => s.srtlaId.secondHalf = zeroBlock 128 ∨
      ∃ e ∈ N.created, e.addr ∈ D.links j ∧ e.id = s.srtlaId) hids h.ids
  · intro d hd
    rcases List.mem_append.mp hd with hd | hd
    · exact h.toReceiver d hd
    · obtain ⟨c, hc, hfd, haddr, hcarries⟩ := Sender.step_sends hstep hop.srtData d hd
      refine ⟨i, ?_, r.1.srtlaId, hhalf, hcarries⟩
      rw [haddr]
      exact h.bound i c hc hfd

theorem reachable_bonded (hhalves : Function.Injective fun i => (D.cfg i).half)
    (hlinks : ∀ i j, i ≠ j → ∀ a ∈ D.links i, ∀ b ∈ D.links j, addressesEqual a b = false)
    (hN : (network D).Reachable N) : Bonded D N := by
  refine Lts.reachableIf_invariant (bonded_start D) ?_ hN
  rintro N a N' h - ⟨he, hnext⟩
  rcases next_cases he hnext with ⟨op, hop, rfl⟩ | ⟨i, op, r, hop, hstep, rfl⟩
  · exact h.afterReceiver hhalves hop
  · exact h.afterSender hlinks hop hstep

/-- **Two senders are never bonded together.** In every state of a system of
    senders with different first halves and different addresses, a connection of
    a group is a link of the one sender whose first half the group's id has, and
    a sender's id has its initial second half or is that of a group that the
    receiver created for a REG1 of this sender. The random halves that the
    receiver draws may coincide. -/
theorem never_bonded_together (D : Deployment ι)
    (hhalves : Function.Injective fun i => (D.cfg i).half)
    (hlinks : ∀ i j, i ≠ j → ∀ a ∈ D.links i, ∀ b ∈ D.links j, addressesEqual a b = false)
    (N : Net ι) (hN : (network D).Reachable N) :
    (∀ g ∈ N.receiver.groups, ∀ c ∈ g.conns,
      ∃ i, c.addr ∈ D.links i ∧
        ∀ j, (N.senders j).srtlaId.firstHalf = g.id.firstHalf ↔ j = i) ∧
    ∀ i, (N.senders i).srtlaId.secondHalf = (D.senders i).srtlaId.secondHalf ∨
      ∃ e ∈ N.created, e.id = (N.senders i).srtlaId ∧ e.addr ∈ D.links i ∧
        isSrtlaReg1 (mem e.buf) e.buf.length = true := by
  have h := reachable_bonded hhalves hlinks hN
  constructor
  · intro g hg c hc
    obtain ⟨i, hhalf, hconns⟩ := h.groups g hg
    refine ⟨i, hconns c hc, fun j => ?_⟩
    rw [h.half j, hhalf]
    exact hhalves.eq_iff
  · intro i
    have hstart := (Sender.start_spec (D.started i) (D.bound i)).1
    rw [hstart, SrtlaId.secondHalf_ofHalves]
    rcases h.ids i with hz | ⟨e, he, haddr, heq⟩
    · exact Or.inl hz
    · exact Or.inr ⟨e, he, heq, haddr, (h.created e he).1⟩

/-- Two senders of which one has registered its first link. -/
theorem never_bonded_together_two_senders : ∃ (D : Deployment Bool) (N : Net Bool),
    (network D).Reachable N ∧ (∃ g ∈ N.receiver.groups, g.conns ≠ []) ∧
    (∀ g ∈ N.receiver.groups, ∀ c ∈ g.conns,
      ∃ i, c.addr ∈ D.links i ∧
        ∀ j, (N.senders j).srtlaId.firstHalf = g.id.firstHalf ↔ j = i) ∧
    ∀ i, (N.senders i).srtlaId.secondHalf = (D.senders i).srtlaId.secondHalf ∨
      ∃ e ∈ N.created, e.id = (N.senders i).srtlaId ∧ e.addr ∈ D.links i ∧
        isSrtlaReg1 (mem e.buf) e.buf.length = true := by
  obtain ⟨N, up, down, -, -, h⟩ := At.registered (fun i => fillHalf (if i then 1 else 2))
    (fun i => Receiver.sampleAddr (if i then 1 else 3))
    (fun i => Receiver.sampleAddr (if i then 2 else 4)) true (fillHalf 3)
  refine ⟨twoSenders, N, h.reach.reachable, ?_,
    never_bonded_together _ twoSenders_halves twoSenders_apart N h.reach.reachable⟩
  rw [h.groups]
  exact ⟨_, List.mem_singleton_self _, List.cons_ne_nil _ _⟩

end Srtla.System
