import Srtla.Receiver.Downstream
import Srtla.Receiver.Relay
import Srtla.Sender.Wire
import Srtla.System.Bonding

/-!
# What crosses the bonded links

The SRT caller hands packets to a sender, which spreads them over its links; the
receiver puts them together and hands them to the SRT server on the socket of the
group. Packets of the server take the way back. The network in between may lose,
repeat, delay and reorder datagrams.

**Deviation.** A caller does not only receive what the server sent: the `switch`
of `handle_srtla_data` does not name REG_ERR, so a refusal of the receiver reaches
the caller as well, padded to 32 bytes.

* `Sourced`: the invariant of the system with its history. Every datagram in
  flight is a frame of one of the two programs or a packet of a caller or of a
  server.
* `upstream_integrity`: what is handed to the server of a group was handed in by
  the caller of the one sender that owns the group.
* `downstream_integrity`: what is handed back to a caller was sent by the server
  of a group of its sender, or it is that refusal.
-/

namespace Srtla.System

open Lib

variable {ι : Type*} {D : Deployment ι} {es : List (Net ι × Act ι)} {N N' : Net ι} {a : Act ι}

/-! ## The logs of a run -/

/-- The packets that the SRT server has sent on the socket of group `r`, as they
    are read from it. -/
def answered (r : ℕ) (es : List (Net ι × Act ι)) : List Bytes :=
  es.filterMap fun
    | (_, .receiver (.srtData ref env)) => if ref = r then env.recv.map (List.take mtu) else none
    | _ => none

/-- The input of the receiver, if the act is one. -/
def Act.receiverOp : Act ι → Option Receiver.Op
  | .receive d ts env => some (.packet (d.2.take mtu) d.1 ts env)
  | .receiver op => some op
  | .deliver .. => none
  | .sender .. => none

/-- The packets handed to `send` on the socket of group `r`. -/
def served (r : ℕ) (es : List (Net ι × Act ι)) : List Bytes :=
  es.flatMap fun e =>
    match e.2.receiverOp with
    | some op => Receiver.sendsTo r (Receiver.step e.1.receiver op).2
    | none => []

/-- Group `r` is sender `i`'s: at some time it was registered with an id that has
    the first half of the sender. -/
def OwnedBy (D : Deployment ι) (es : List (Net ι × Act ι)) (r : ℕ) (i : ι) : Prop :=
  ∃ e ∈ es, ∃ g ∈ e.1.receiver.groups, g.ref = r ∧ g.id.firstHalf = (D.cfg i).half

theorem served_concat (r : ℕ) (es : List (Net ι × Act ι)) (e : Net ι × Act ι) :
    served r (es ++ [e]) = served r es ++ served r [e] := List.flatMap_append

theorem served_receiver {op : Receiver.Op} (hop : a.receiverOp = some op) (r : ℕ) :
    System.served r [(N, a)] = Receiver.sendsTo r (Receiver.step N.receiver op).2 := by
  simp [System.served, hop]

theorem served_sender (hop : a.receiverOp = none) (r : ℕ) : System.served r [(N, a)] = [] := by
  simp [System.served, hop]

theorem answered_mono (r : ℕ) (e : Net ι × Act ι) {b : Bytes} (h : b ∈ answered r es) :
    b ∈ answered r (es ++ [e]) := by
  unfold answered at h ⊢
  rw [List.filterMap_append]
  exact List.mem_append_left _ h

theorem length_of_mem_answered {r : ℕ} {x : Bytes} (h : x ∈ answered r es) : x.length ≤ mtu := by
  unfold answered at h
  obtain ⟨e, _, he⟩ := List.mem_filterMap.mp h
  split at he
  · split_ifs at he
    obtain ⟨d, _, rfl⟩ := Option.map_eq_some_iff.mp he
    exact List.length_take_le _ _
  · cases he

theorem OwnedBy.mono (e : Net ι × Act ι) {r : ℕ} {i : ι} (h : OwnedBy D es r i) :
    OwnedBy D (es ++ [e]) r i :=
  let ⟨x, hx, hg⟩ := h
  ⟨x, List.mem_append_left _ hx, hg⟩

/-- A registered group is owned by the sender its id names. -/
theorem OwnedBy.now {g : Receiver.ConnectionGroup} (hg : g ∈ N.receiver.groups) {i : ι}
    (hid : g.id.firstHalf = (D.cfg i).half) : OwnedBy D (es ++ [(N, a)]) g.ref i :=
  ⟨(N, a), List.mem_append_right _ (List.mem_singleton_self _), g, hg, rfl, hid⟩

/-- The groups of a run: those of every state so far. -/
def allGroups (es : List (Net ι × Act ι)) (N : Net ι) : List Receiver.ConnectionGroup :=
  es.flatMap (fun e => e.1.receiver.groups) ++ N.receiver.groups

/-- The identities of groups are not used twice. -/
structure OneId (es : List (Net ι × Act ι)) (N : Net ι) : Prop where
  inv : Receiver.Inv N.receiver
  lt : ∀ g ∈ allGroups es N, g.ref < N.receiver.nextRef
  eq : ∀ g ∈ allGroups es N, ∀ g' ∈ allGroups es N, g.ref = g'.ref → g.id = g'.id

theorem mem_allGroups_concat {g : Receiver.ConnectionGroup} :
    g ∈ allGroups (es ++ [(N, a)]) N' ↔ g ∈ allGroups es N ∨ g ∈ N'.receiver.groups := by
  simp only [allGroups, List.flatMap_append, List.flatMap_singleton, List.mem_append]

theorem OneId.afterReceiver (h : OneId es N) (op : Receiver.Op) :
    OneId (es ++ [(N, a)]) (N.afterReceiver op) := by
  have hle : N.receiver.nextRef ≤ (N.afterReceiver op).receiver.nextRef :=
    (Receiver.step_regStep h.inv op).nextRef_le
  have hinv : Receiver.Inv (N.afterReceiver op).receiver :=
    (Receiver.step_regStep h.inv op).inv h.inv
  -- a group is as before, or it has an identity that no group had
  have hnew : ∀ g' ∈ (N.afterReceiver op).receiver.groups, g'.ref = N.receiver.nextRef ∨
      ∃ g ∈ allGroups es N, g'.ref = g.ref ∧ g'.id = g.id := by
    intro g' hg'
    cases Receiver.step_origin h.inv op hg' with
    | created _ _ heq => exact Or.inl (by rw [heq]; rfl)
    | old hg href hid => exact Or.inr ⟨_, List.mem_append_right _ hg, href, hid⟩
  have hlt : ∀ g ∈ allGroups (es ++ [(N, a)]) (N.afterReceiver op),
      g.ref < (N.afterReceiver op).receiver.nextRef := by
    intro g hg
    rcases mem_allGroups_concat.mp hg with hg | hg
    · exact (h.lt g hg).trans_le hle
    · exact (hinv.wf g hg).ref_lt
  refine ⟨hinv, hlt, ?_⟩
  have holdnew : ∀ g ∈ allGroups es N, ∀ g' ∈ (N.afterReceiver op).receiver.groups,
      g.ref = g'.ref → g.id = g'.id := by
    intro g hg g' hg' href
    rcases hnew g' hg' with hfresh | ⟨x, hx, hxref, hxid⟩
    · have := h.lt g hg
      omega
    · rw [hxid]
      exact h.eq g hg x hx (href.trans hxref)
  intro g hg g' hg' href
  rcases mem_allGroups_concat.mp hg with hg | hg <;> rcases mem_allGroups_concat.mp hg' with hg' | hg'
  · exact h.eq g hg g' hg' href
  · exact holdnew g hg g' hg' href
  · exact (holdnew g' hg' g hg href.symm).symm
  · rw [Keyed.eq_of_key_eq hinv.refs hg hg' href]

/-- The refusal of the receiver as it is on the wire. -/
def refusal : Bytes := padWire (putBe16 srtlaTypeRegErr)

/-- A datagram of the receiver: a frame that a sender keeps to itself, a refusal,
    or a packet of the server for a sender's group, sent to that sender. -/
inductive Returned (D : Deployment ι) (es : List (Net ι × Act ι)) (d : SockaddrStorage × Bytes) : Prop
  | frame (type : getSrtType (mem d.2) d.2.length ∈
      [srtlaTypeRegNgp, srtlaTypeReg2, srtlaTypeAck, srtlaTypeKeepalive, srtlaTypeReg3])
  | refused (eq : d.2 = refusal)
  | packet {r : ℕ} {i : ι} {x : Bytes} (owned : OwnedBy D es r i) (link : d.1 ∈ D.links i)
      (sent : x ∈ answered r es) (eq : d.2 = x ∨ d.2 = padWire x)

theorem Returned.mono (e : Net ι × Act ι) {d : SockaddrStorage × Bytes} (h : Returned D es d) :
    Returned D (es ++ [e]) d := by
  cases h with
  | frame htype => exact .frame htype
  | refused heq => exact .refused heq
  | packet howned hlink hsent heq => exact .packet (howned.mono e) hlink (answered_mono _ e hsent) heq

variable [DecidableEq ι]

/-- The packets that the SRT caller of sender `i` has handed in. -/
def submitted (i : ι) (es : List (Net ι × Act ι)) : List Bytes :=
  es.filterMap fun
    | (_, .sender j (.srtData env)) => if j = i then some (window env.buf 0 env.n.toNat) else none
    | _ => none

/-- The input of sender `i`, if the act is one. -/
def Act.senderOp (i : ι) : Act ι → Option Sender.Op
  | .receive .. => none
  | .receiver _ => none
  | .deliver j ref d m ts ret fuel =>
    if j = i then some (.srtlaData ref m (received d.2) ts ret fuel) else none
  | .sender j op => if j = i then some op else none

/-- The packets handed back to the SRT caller of sender `i`. -/
def handedBack (i : ι) (es : List (Net ι × Act ι)) : List Bytes :=
  es.flatMap fun e =>
    match (e.2.senderOp i).bind (Sender.step (e.1.senders i)) with
    | some r => Sender.toCaller r.2
    | none => []

/-! ## How the logs grow -/

theorem handedBack_concat (i : ι) (es : List (Net ι × Act ι)) (e : Net ι × Act ι) :
    handedBack i (es ++ [e]) = handedBack i es ++ handedBack i [e] := List.flatMap_append

theorem submitted_mono (i : ι) (e : Net ι × Act ι) {b : Bytes} (h : b ∈ submitted i es) :
    b ∈ submitted i (es ++ [e]) := by
  unfold submitted at h ⊢
  rw [List.filterMap_append]
  exact List.mem_append_left _ h

/-- A packet that the caller hands in is in its log. -/
theorem mem_submitted_concat {i : ι} {env : Sender.SrtDataEnv}
    (hop : a.senderOp i = some (.srtData env)) :
    window env.buf 0 env.n.toNat ∈ submitted i (es ++ [(N, a)]) := by
  have ha : a = .sender i (.srtData env) := by
    cases a with
    | receive => cases hop
    | receiver => cases hop
    | deliver j =>
      dsimp only [Act.senderOp] at hop
      split_ifs at hop
      cases hop
    | sender j op =>
      dsimp only [Act.senderOp] at hop
      split_ifs at hop with hj
      rw [hj, Option.some.inj hop]
  unfold submitted
  rw [List.filterMap_append, ha]
  refine List.mem_append_right _ ?_
  simp

/-- Every act is an input of the receiver or of one sender. -/
theorem Act.cases_op {links : ι → Set SockaddrStorage} (he : a.Enabled links N)
    (h : N.next a = some N') :
    (∃ op, a.receiverOp = some op ∧ (∀ i, a.senderOp i = none) ∧ ReceiverInput N op ∧
      N' = N.afterReceiver op) ∨
    ∃ i op r, a.receiverOp = none ∧ a.senderOp i = some op ∧ (∀ j, j ≠ i → a.senderOp j = none) ∧
      SenderInput links N i op ∧ Sender.step (N.senders i) op = some r ∧ N' = N.afterSender i r := by
  cases a with
  | receive d ts env =>
    exact Or.inl ⟨_, rfl, fun _ => rfl, Or.inr ⟨d, he.1, ts, env, rfl⟩, (Option.some.inj h).symm⟩
  | receiver op => exact Or.inl ⟨op, rfl, fun _ => rfl, Or.inl he, (Option.some.inj h).symm⟩
  | deliver i ref d m ts ret fuel =>
    obtain ⟨r, hr, rfl⟩ := Option.map_eq_some_iff.mp h
    exact Or.inr ⟨i, _, r, rfl, if_pos rfl, fun j hj => if_neg hj.symm,
      Or.inr ⟨ref, d, m, ts, ret, fuel, rfl, he⟩, hr, rfl⟩
  | sender i op =>
    obtain ⟨r, hr, rfl⟩ := Option.map_eq_some_iff.mp h
    exact Or.inr ⟨i, op, r, rfl, if_pos rfl, fun j hj => if_neg hj.symm, Or.inl he, hr, rfl⟩

/-! ## Owners -/

theorem OneId.afterSender (h : OneId es N) (i : ι) (r : Sender.State × List Sender.Effect) :
    OneId (es ++ [(N, a)]) (N.afterSender i r) := by
  have hsub : ∀ g ∈ allGroups (es ++ [(N, a)]) (N.afterSender i r), g ∈ allGroups es N := by
    intro g hg
    rcases mem_allGroups_concat.mp hg with hg | hg
    · exact hg
    · exact List.mem_append_right _ hg
  exact ⟨h.inv, fun g hg => h.lt g (hsub g hg),
    fun g hg g' hg' => h.eq g (hsub g hg) g' (hsub g' hg')⟩

theorem oneId_trace (h : (network D).Trace es N) : OneId es N := by
  refine Lts.Trace.invariant ?_ ?_ h
  · exact ⟨Receiver.inv_init, fun _ hg => absurd hg List.not_mem_nil,
      fun _ hg => absurd hg List.not_mem_nil⟩
  · rintro es N a N' hI ⟨he, hnext⟩
    rcases Act.cases_op he hnext with ⟨op, _, _, _, rfl⟩ | ⟨i, op, r, _, _, _, _, _, rfl⟩
    · exact hI.afterReceiver op
    · exact hI.afterSender i r

/-- **A group has one owner.** -/
theorem OwnedBy.unique (hhalves : Function.Injective fun i => (D.cfg i).half)
    (h : (network D).Trace es N) {r : ℕ} {i j : ι} (hi : OwnedBy D es r i) (hj : OwnedBy D es r j) :
    i = j := by
  obtain ⟨e, he, g, hg, href, hhalf⟩ := hi
  obtain ⟨e', he', g', hg', href', hhalf'⟩ := hj
  have hid := (oneId_trace h).eq g (List.mem_append_left _ (List.mem_flatMap.mpr ⟨e, he, hg⟩))
    g' (List.mem_append_left _ (List.mem_flatMap.mpr ⟨e', he', hg'⟩)) (href.trans href'.symm)
  exact hhalves (by show (D.cfg i).half = (D.cfg j).half; rw [← hhalf, ← hhalf', hid])

/-! ## The invariant -/

/-- A frame that a sender makes itself. -/
def SenderFrame (b : Bytes) : Prop :=
  (∃ id, b = reg1Frame id ∨ b = reg2Frame id) ∨ b = putBe16 srtlaTypeKeepalive

/-- A datagram of sender `i`: a frame of its own or a packet of its caller. -/
def SentBy (D : Deployment ι) (es : List (Net ι × Act ι)) (i : ι) (d : SockaddrStorage × Bytes) : Prop :=
  d.1 ∈ D.links i ∧ (SenderFrame d.2 ∨ d.2 ∈ submitted i es)

/-- The invariant of the system with its history. -/
structure Sourced (D : Deployment ι) (es : List (Net ι × Act ι)) (N : Net ι) : Prop where
  bonded : Bonded D N
  lastAddr : ∀ g ∈ N.receiver.groups, ∃ i, g.id.firstHalf = (D.cfg i).half ∧ g.lastAddr ∈ D.links i
  toReceiver : ∀ d ∈ N.toReceiver, ∃ i, SentBy D es i d
  toSenders : ∀ d ∈ N.toSenders, Returned D es d
  served : ∀ r, ∀ b ∈ served r es, ∃ i, OwnedBy D es r i ∧ ∃ x ∈ submitted i es, b = x.take mtu
  handedBack : ∀ i, ∀ b ∈ handedBack i es,
    b = refusal ∨ ∃ r, OwnedBy D es r i ∧ ∃ x ∈ answered r es, b = x ∨ b = padWire x

theorem sourced_start (D : Deployment ι) : Sourced D [] D.start where
  bonded := bonded_start D
  lastAddr _ hg := absurd hg List.not_mem_nil
  toReceiver _ hd := absurd hd List.not_mem_nil
  toSenders _ hd := absurd hd List.not_mem_nil
  served _ _ hb := absurd hb List.not_mem_nil
  handedBack _ _ hb := absurd hb List.not_mem_nil

/-- A log entry stays explained when the history grows. -/
theorem Sourced.served_mono (h : Sourced D es N) (e : Net ι × Act ι) (r : ℕ) :
    ∀ b ∈ System.served r es, ∃ i, OwnedBy D (es ++ [e]) r i ∧
      ∃ x ∈ submitted i (es ++ [e]), b = x.take mtu := by
  intro b hb
  obtain ⟨i, howned, x, hx, heq⟩ := h.served r b hb
  exact ⟨i, howned.mono e, x, submitted_mono i e hx, heq⟩

theorem Sourced.handedBack_mono (h : Sourced D es N) (e : Net ι × Act ι) (i : ι) :
    ∀ b ∈ System.handedBack i es, b = refusal ∨
      ∃ r, OwnedBy D (es ++ [e]) r i ∧ ∃ x ∈ answered r (es ++ [e]), b = x ∨ b = padWire x := by
  intro b hb
  rcases h.handedBack i b hb with heq | ⟨r, howned, x, hx, heq⟩
  · exact Or.inl heq
  · exact Or.inr ⟨r, howned.mono e, x, answered_mono r e hx, heq⟩

/-! ## Steps of the receiver -/

/-- Sockets of different senders have different addresses. -/
def LinksApart (D : Deployment ι) : Prop :=
  ∀ i j, i ≠ j → ∀ a ∈ D.links i, ∀ b ∈ D.links j, addressesEqual a b = false

theorem LinksApart.eq (h : LinksApart D) {i j : ι} {a b : SockaddrStorage} (ha : a ∈ D.links i)
    (hb : b ∈ D.links j) (hab : addressesEqual a b = true) : i = j := by
  by_contra hij
  rw [h i j hij a ha b hb] at hab
  cases hab

/-- A datagram on a connection of a group comes from the group's own sender. -/
theorem Bonded.sender_of_conn (h : Bonded D N) (hlinks : LinksApart D) {addr : SockaddrStorage}
    {g : Receiver.ConnectionGroup} {c : Receiver.Connection} (hg : g ∈ N.receiver.groups)
    (hc : c ∈ g.conns) (haddr : addressesEqual c.addr addr = true) {i : ι}
    (hi : addr ∈ D.links i) : g.id.firstHalf = (D.cfg i).half := by
  obtain ⟨j, hhalf, hconns⟩ := h.groups g hg
  rw [hhalf, hlinks.eq (hconns c hc) hi haddr]

theorem Sourced.lastAddr_step (h : Sourced D es N) (hlinks : LinksApart D) {op : Receiver.Op}
    (hop : ReceiverInput N op) : ∀ g' ∈ (Receiver.step N.receiver op).1.groups,
      ∃ i, g'.id.firstHalf = (D.cfg i).half ∧ g'.lastAddr ∈ D.links i := by
  intro g' hg'
  cases Receiver.step_groupStep h.bonded.inv op hg' with
  | kept hg => exact h.lastAddr g' hg
  | created h1 heq =>
    obtain ⟨d, hd, rfl, rfl⟩ := hop.packet rfl
    obtain ⟨i, hfrom⟩ := h.bonded.toReceiver d hd
    refine ⟨i, ?_, by rw [heq]; exact hfrom.1⟩
    rw [heq, Receiver.newGroup, Receiver.ConnectionGroup.create, SrtlaId.firstHalf_ofHalves]
    exact hfrom.reg1 h1
  | joined h2 hid heq =>
    obtain ⟨d, hd, rfl, rfl⟩ := hop.packet rfl
    obtain ⟨i, hfrom⟩ := h.bonded.toReceiver d hd
    refine ⟨i, ?_, by rw [heq]; exact hfrom.1⟩
    rw [heq, ← hfrom.reg2 h2, ← (Receiver.findGroupById_eq_some hid).2]
    rfl
  | repeated _ hf heq =>
    obtain ⟨hg, hc, ha⟩ := Receiver.findByAddress_conn hf
    obtain ⟨d, hd, rfl, rfl⟩ := hop.packet rfl
    obtain ⟨i, hfrom⟩ := h.bonded.toReceiver d hd
    rw [heq]
    exact ⟨i, h.bonded.sender_of_conn hlinks hg hc ha hfrom.1, hfrom.1⟩
  | received _ _ hf hafter =>
    obtain ⟨hg, hc, ha⟩ := Receiver.findByAddress_conn hf
    rw [Receiver.afterPacket_lastAddr hafter, Receiver.afterPacket_frame hafter]
    show ∃ i, SrtlaId.firstHalf (Receiver.onPacket _ _ _ _ _ _).group.id = _ ∧ _
    rw [Receiver.onPacket_id]
    split_ifs
    · obtain ⟨d, hd, rfl, rfl⟩ := hop.packet rfl
      obtain ⟨i, hfrom⟩ := h.bonded.toReceiver d hd
      exact ⟨i, h.bonded.sender_of_conn hlinks hg hc ha hfrom.1, hfrom.1⟩
    · exact h.lastAddr _ hg
  | @server g _ _ hg heq => rw [heq]; exact h.lastAddr g hg
  | @reaped g _ _ hg _ heq => rw [heq]; exact h.lastAddr g hg
  | @assessed g t ms hg heq =>
    obtain ⟨_, hsame⟩ := Receiver.assess_frame g t (ms g.ref)
    rw [heq, hsame]
    exact h.lastAddr g hg

/-- What is handed to the server is a packet of the group's own caller. -/
theorem Sourced.served_step (h : Sourced D es N) (hlinks : LinksApart D) {op : Receiver.Op}
    (hop : ReceiverInput N op) {r : ℕ} {b : Bytes}
    (hb : b ∈ Receiver.sendsTo r (Receiver.step N.receiver op).2) :
    ∃ i, OwnedBy D (es ++ [(N, a)]) r i ∧ ∃ x ∈ submitted i es, b = x.take mtu := by
  rw [Receiver.sendsTo_step h.bonded.inv] at hb
  unfold Receiver.relayed at hb
  dsimp only at hb
  split at hb
  · rename_i buf addr ts env g hget
    split_ifs at hb with hrel
    · obtain rfl := List.mem_singleton.mp hb
      have hg := Keyed.get_mem hget
      obtain rfl := Keyed.get_key hget
      have hrelay := (Bool.and_eq_true_iff.mp hrel).1
      obtain ⟨h1, h2, _, c, hc, ha, _⟩ := Receiver.Relayable.found h.bonded.inv hg hrelay
      obtain ⟨d, hd, rfl, rfl⟩ := hop.packet rfl
      obtain ⟨i, hlink, hframe | hsub⟩ := h.toReceiver d hd
      · -- the sender's own frames are registrations or too short
        exfalso
        rcases hframe with ⟨id, heq | heq⟩ | heq
        · rw [heq, reg1Frame, take_regFrame, ← reg1Frame, isSrtlaReg1_reg1Frame] at h1
          cases h1
        · rw [heq, reg2Frame, take_regFrame, ← reg2Frame, isSrtlaReg2_reg2Frame] at h2
          cases h2
        · rw [heq] at hrelay
          simp only [Receiver.Relayable, Bool.and_eq_true, decide_eq_true_eq] at hrelay
          have hlen := hrelay.1.1.1.1.2
          rw [List.length_take, length_putBe16] at hlen
          simp [srtMinLen] at hlen
      · exact ⟨i, .now hg (h.bonded.sender_of_conn hlinks hg hc ha hlink), d.2, hsub, rfl⟩
    · exact absurd hb List.not_mem_nil
  · exact absurd hb List.not_mem_nil

/-- What the receiver puts on the SRTLA network. -/
theorem Sourced.returned_step (h : Sourced D es N) {op : Receiver.Op}
    (hop : a.receiverOp = some op) {d : SockaddrStorage × Bytes}
    (hd : d ∈ (Receiver.step N.receiver op).2.flatMap Receiver.Effect.wire) :
    Returned D (es ++ [(N, a)]) d := by
  obtain ⟨e, he, hwire⟩ := List.mem_flatMap.mp hd
  have hpad : ∀ {site addr} {buf : Bytes} {ret}, e = .padSendto site addr buf ret →
      d = (addr, padWire buf) := by
    rintro site addr buf ret rfl
    simp only [Receiver.Effect.wire] at hwire
    split_ifs at hwire
    · exact List.mem_singleton.mp hwire
    · exact absurd hwire List.not_mem_nil
  -- a padded frame has the type of the frame
  have hframe : ∀ {site addr} {buf : Bytes} {ret}, e = .padSendto site addr buf ret →
      2 ≤ buf.length → getSrtType (mem buf) buf.length ∈ [srtlaTypeRegNgp, srtlaTypeReg2,
        srtlaTypeAck, srtlaTypeKeepalive, srtlaTypeReg3] → Returned D (es ++ [(N, a)]) d := by
    intro site addr buf ret heq hlen htype
    rw [← getSrtType_padWire hlen] at htype
    rw [hpad heq]
    exact .frame htype
  -- a packet of the server is in the log of its group
  have hlog : ∀ {ref env datagram}, op = .srtData ref env → env.recv = some datagram →
      datagram.take mtu ∈ answered ref (es ++ [(N, a)]) := by
    rintro ref env datagram rfl hrecv
    have ha : a = .receiver (.srtData ref env) := by
      cases a with
      | receive => cases hop
      | receiver op => rw [Option.some.inj hop]
      | deliver => cases hop
      | sender => cases hop
    unfold answered
    rw [List.filterMap_append, ha]
    refine List.mem_append_right _ ?_
    simp [hrecv]
  cases Receiver.step_effects h.bonded.inv op e he with
  | @reply buf addr ts env type _ htypes =>
    rcases htypes with rfl | rfl | rfl
    · rw [hpad rfl]
      exact .refused rfl
    · exact hframe rfl (by decide) (by decide)
    · exact hframe rfl (by decide) (by decide)
  | reg2 =>
    refine hframe rfl (by rw [reg2Frame, length_regFrame]; decide) ?_
    rw [reg2Frame, getSrtType_regFrame (by decide)]
    decide
  | @ack buf addr ts env g c =>
    obtain ⟨hlen, hack⟩ :=
      getSrtType_ackFrame ((c.touch ts).1.logPacket (getSrtSn (mem buf) buf.length))
    exact hframe rfl hlen (by rw [hack]; decide)
  | echo hk =>
    have hkt := getSrtType_of_isSrtlaKeepalive hk
    exact hframe rfl (two_le_of_getSrtType (by rw [hkt]; decide)) (by rw [hkt]; decide)
  | forward => exact absurd hwire List.not_mem_nil
  | @downstream ref env g datagram hget hrecv =>
    obtain ⟨i, hhalf, hlast⟩ := h.lastAddr g (Keyed.get_mem hget)
    obtain rfl := Keyed.get_key hget
    rw [hpad rfl]
    exact .packet (.now (Keyed.get_mem hget) hhalf) hlast (hlog rfl hrecv) (Or.inr rfl)
  | @broadcast ref env g datagram hget hrecv =>
    obtain ⟨i, hhalf, hconns⟩ := h.bonded.groups g (Keyed.get_mem hget)
    obtain rfl := Keyed.get_key hget
    obtain ⟨addr, haddr, rfl⟩ := List.mem_map.mp hwire
    obtain ⟨c, hc, rfl⟩ := List.mem_map.mp (List.mem_of_mem_take haddr)
    exact .packet (.now (Keyed.get_mem hget) hhalf) (hconns c (List.mem_of_mem_take hc))
      (hlog rfl hrecv) (Or.inl rfl)
  | keepalive => exact hframe rfl (by decide) (by decide)

theorem handedBack_none {i : ι} (hop : a.senderOp i = none) : System.handedBack i [(N, a)] = [] := by
  simp [System.handedBack, hop]

theorem handedBack_some {i : ι} {op : Sender.Op} {r : Sender.State × List Sender.Effect}
    (hop : a.senderOp i = some op) (hstep : Sender.step (N.senders i) op = some r) :
    System.handedBack i [(N, a)] = Sender.toCaller r.2 := by
  simp [System.handedBack, hop, hstep]

theorem Sourced.afterReceiver (h : Sourced D es N)
    (hhalves : Function.Injective fun i => (D.cfg i).half) (hlinks : LinksApart D)
    {op : Receiver.Op} (hop : a.receiverOp = some op) (hother : ∀ i, a.senderOp i = none)
    (hinput : ReceiverInput N op) : Sourced D (es ++ [(N, a)]) (N.afterReceiver op) where
  bonded := h.bonded.afterReceiver hhalves hinput
  lastAddr := h.lastAddr_step hlinks hinput
  toReceiver := by
    intro d hd
    obtain ⟨i, hlink, hframe | hsub⟩ := h.toReceiver d hd
    · exact ⟨i, hlink, Or.inl hframe⟩
    · exact ⟨i, hlink, Or.inr (submitted_mono i _ hsub)⟩
  toSenders := by
    intro d hd
    rcases List.mem_append.mp hd with hd | hd
    · exact (h.toSenders d hd).mono _
    · exact h.returned_step hop hd
  served := by
    intro r b hb
    rw [served_concat, served_receiver hop] at hb
    rcases List.mem_append.mp hb with hb | hb
    · exact h.served_mono _ r b hb
    · obtain ⟨i, howned, x, hx, heq⟩ := h.served_step hlinks hinput hb
      exact ⟨i, howned, x, submitted_mono i _ hx, heq⟩
  handedBack := by
    intro i b hb
    rw [handedBack_concat, handedBack_none (hother i), List.append_nil] at hb
    exact h.handedBack_mono _ i b hb

/-! ## Steps of a sender -/

theorem length_padWire_le {b : Bytes} (h : b.length ≤ mtu) : (padWire b).length ≤ mtu := by
  unfold padWire
  split_ifs
  · exact h
  · simp only [List.length_append, List.length_replicate, mtu]
    omega

/-- `recvfrom` stores the datagram, cut at `MTU` bytes. -/
theorem window_received {d : Bytes} {m : Mem} (hm : ∀ k < received d, m k = mem d k) :
    window m 0 (received d) = d.take mtu := by
  have hwindow : window m 0 (received d) = window (mem d) 0 (min mtu (d.length - 0)) := by
    rw [Nat.sub_zero, Nat.min_comm]
    exact window_congr fun k hk => by rw [Nat.zero_add]; exact hm k hk
  rw [hwindow, window_mem_min, List.drop_zero]

/-- What a sender hands to its caller is a packet of a server of its own. -/
theorem Sourced.handedBack_step (h : Sourced D es N) (hlinks : LinksApart D) {i : ι}
    {op : Sender.Op} {r : Sender.State × List Sender.Effect} (hinput : SenderInput D.links N i op)
    (hstep : Sender.step (N.senders i) op = some r) {b : Bytes} (hb : b ∈ Sender.toCaller r.2) :
    b = refusal ∨ ∃ r, OwnedBy D es r i ∧ ∃ x ∈ answered r es, b = x ∨ b = padWire x := by
  obtain ⟨ref, m, n, ts, ret, fuel, rfl, rfl, htype⟩ := Sender.step_toCaller hstep hb
  rcases hinput with hlocal | ⟨_, d, _, _, _, _, heq, hd, ⟨c, hc, _, hfd, haddr⟩, hm⟩
  · exact hlocal.elim
  cases heq
  have hreceived : received d.2 = min d.2.length 1500 := rfl
  have hsame : getSrtType m (received d.2) = getSrtType (mem d.2) d.2.length :=
    getSrtType_congr (by omega) fun h2 => ⟨hm 0 (by omega), hm 1 (by omega)⟩
  rw [hsame] at htype
  rw [Int.toNat_natCast, window_received hm]
  have hcut : ∀ {y : Bytes}, d.2 = y → y.length ≤ mtu → d.2.take mtu = y := by
    intro y hy hlen
    rw [hy, List.take_of_length_le hlen]
  cases h.toSenders d hd with
  | frame hin => exact absurd hin htype
  | refused heq => exact Or.inl (hcut heq (by decide))
  | @packet r j x howned hlink hsent heq =>
    obtain rfl := hlinks.eq (h.bonded.bound i c hc hfd) hlink haddr
    have hlen := length_of_mem_answered hsent
    exact Or.inr ⟨r, howned, x, hsent,
      heq.imp (fun heq => hcut heq hlen) fun heq => hcut heq (length_padWire_le hlen)⟩

theorem Sourced.afterSender (h : Sourced D es N) (hlinks : LinksApart D) {i : ι} {op : Sender.Op}
    {r : Sender.State × List Sender.Effect} (hrec : a.receiverOp = none)
    (hop : a.senderOp i = some op) (hother : ∀ j, j ≠ i → a.senderOp j = none)
    (hinput : SenderInput D.links N i op) (hstep : Sender.step (N.senders i) op = some r) :
    Sourced D (es ++ [(N, a)]) (N.afterSender i r) where
  bonded := h.bonded.afterSender hlinks hinput hstep
  lastAddr := h.lastAddr
  toReceiver := by
    intro d hd
    rcases List.mem_append.mp hd with hd | hd
    · obtain ⟨j, hlink, hframe | hsub⟩ := h.toReceiver d hd
      · exact ⟨j, hlink, Or.inl hframe⟩
      · exact ⟨j, hlink, Or.inr (submitted_mono j _ hsub)⟩
    · obtain ⟨c, hc, hfd, haddr, _⟩ := Sender.step_sends hstep hinput.srtData d hd
      refine ⟨i, by rw [haddr]; exact h.bonded.bound i c hc hfd, ?_⟩
      have horigin := Sender.step_wireOrigin hstep hd
      generalize d.2 = b at horigin
      cases horigin with
      | reg1 id => exact Or.inl (Or.inl ⟨id, Or.inl rfl⟩)
      | reg2 id => exact Or.inl (Or.inl ⟨id, Or.inr rfl⟩)
      | keepalive => exact Or.inl (Or.inr rfl)
      | data hdata => exact Or.inr (mem_submitted_concat (hop.trans (congrArg some hdata)))
  toSenders d hd := (h.toSenders d hd).mono _
  served := by
    intro r b hb
    rw [served_concat, served_sender hrec, List.append_nil] at hb
    exact h.served_mono _ r b hb
  handedBack := by
    intro j b hb
    rw [handedBack_concat] at hb
    rcases List.mem_append.mp hb with hb | hb
    · exact h.handedBack_mono _ j b hb
    · by_cases hj : j = i
      · subst hj
        rw [handedBack_some hop hstep] at hb
        rcases h.handedBack_step hlinks hinput hstep hb with heq | ⟨r, howned, x, hx, heq⟩
        · exact Or.inl heq
        · exact Or.inr ⟨r, howned.mono _, x, answered_mono r _ hx, heq⟩
      · rw [handedBack_none (hother j hj)] at hb
        exact absurd hb List.not_mem_nil

theorem sourced_trace (hhalves : Function.Injective fun i => (D.cfg i).half) (hlinks : LinksApart D)
    (h : (network D).Trace es N) : Sourced D es N := by
  refine Lts.Trace.invariant (sourced_start D) ?_ h
  rintro es N a N' hI ⟨he, hnext⟩
  rcases Act.cases_op he hnext with ⟨op, hop, hother, hinput, rfl⟩ |
    ⟨i, op, r, hrec, hop, hother, hinput, hstep, rfl⟩
  · exact hI.afterReceiver hhalves hlinks hop hother hinput
  · exact hI.afterSender hlinks hrec hop hother hinput hstep

/-! ## Runs on which packets arrive -/

theorem trace_sender {i : ι} {op : Sender.Op} {r : Sender.State × List Sender.Effect}
    (h : (network D).Trace es N) (hop : op.Local (D.links i))
    (hstep : Sender.step (N.senders i) op = some r) :
    (network D).Trace (es ++ [(N, .sender i op)]) (N.afterSender i r) := by
  refine h.step ⟨hop, ?_⟩
  rw [Net.next, hstep]
  rfl

theorem trace_deliver {i : ι} {c : Sender.Conn} {d : SockaddrStorage × Bytes} {ts : ℤ} {ret : ℕ → ℤ}
    {r : Sender.State × List Sender.Effect} (h : (network D).Trace es N) (hd : d ∈ N.toSenders)
    (hc : c ∈ (N.senders i).conns) (hfd : 0 ≤ c.fd) (haddr : addressesEqual c.addr d.1 = true)
    (hstep : Sender.step (N.senders i) (.srtlaData c.ref (mem d.2) (received d.2) ts ret 0) = some r) :
    (network D).Trace (es ++ [(N, .deliver i c.ref d (mem d.2) ts ret 0)]) (N.afterSender i r) := by
  refine h.step ⟨⟨hd, ⟨c, hc, rfl, hfd, haddr⟩, fun _ _ => rfl⟩, ?_⟩
  rw [Net.next, hstep]
  rfl

theorem trace_receive {d : SockaddrStorage × Bytes} (h : (network D).Trace es N)
    (hd : d ∈ N.toReceiver) (hlen : 0 < d.2.length) (ts : ℤ) (env : Receiver.PacketEnv) :
    (network D).Trace (es ++ [(N, .receive d ts env)])
      (N.afterReceiver (.packet (d.2.take mtu) d.1 ts env)) :=
  h.step ⟨⟨hd, hlen⟩, rfl⟩

theorem trace_receiver {op : Receiver.Op} (h : (network D).Trace es N) (hop : Internal op) :
    (network D).Trace (es ++ [(N, .receiver op)]) (N.afterReceiver op) := h.step ⟨hop, rfl⟩

/-- The first sender after its first registration. -/
def bondedSender : Sender.State :=
  twoLinks (Receiver.sampleAddr 1) (Receiver.sampleAddr 2) (.ofHalves (fillHalf 1) (fillHalf 3)) none
    104 100000

/-- Its group. -/
def bondedGroup : Receiver.ConnectionGroup :=
  Receiver.handshakeGroup (.ofHalves (fillHalf 1) (zeroBlock 128)) (fillHalf 3)
    (Receiver.sampleAddr 1) (Receiver.sampleAddr 1) 100 100

/-- The first registration, with its history. The REG3 is still on its way. -/
theorem twoSenders_registered : ∃ es N, (network twoSenders).Trace es N ∧
    N.senders true = bondedSender ∧ (Receiver.sampleAddr 1, reg3Frame) ∈ N.toSenders ∧
    Keyed.get Receiver.ConnectionGroup.ref 0 N.receiver.groups = some bondedGroup := by
  obtain ⟨N, up, down, hreg3, -, h⟩ := At.registered (fun i => fillHalf (if i then 1 else 2))
    (fun i => Receiver.sampleAddr (if i then 1 else 3))
    (fun i => Receiver.sampleAddr (if i then 2 else 4)) true (fillHalf 3)
  obtain ⟨es, hes⟩ := h.reach.exists_trace
  refine ⟨es, N, hes, h.sender, h.down _ hreg3, ?_⟩
  rw [h.groups]
  rfl

/-! ## End to end -/

/-- **Nothing is made up and no two streams are mixed on the way to the server.**
    In every run of senders with different first halves and different addresses,
    a packet handed to `send` on the socket of a group was handed in by the SRT
    caller of the sender that owns the group, and is that packet byte for byte,
    cut at `MTU` bytes. A group has one owner. -/
theorem upstream_integrity (D : Deployment ι)
    (hhalves : Function.Injective fun i => (D.cfg i).half) (hlinks : LinksApart D)
    (es : List (Net ι × Act ι)) (N : Net ι) (h : (network D).Trace es N) (r : ℕ) :
    (∀ b ∈ served r es, ∃ i, OwnedBy D es r i ∧ ∃ x ∈ submitted i es, b = x.take mtu) ∧
      ∀ i j, OwnedBy D es r i → OwnedBy D es r j → i = j :=
  ⟨(sourced_trace hhalves hlinks h).served r, fun _ _ hi hj => hi.unique hhalves h hj⟩

/-- The first sender when its link is in service, at 101. -/
def servedSender : Sender.State :=
  { bondedSender.putConn { openLink 0 srcA (Receiver.sampleAddr 1) with lastRcvd := 101 } with
    hasConnected := true
    activeConnections := bondedSender.activeConnections + 1 }

/-- A data packet of the caller at the same time. -/
def packetEnv : Sender.SrtDataEnv := ⟨16, mem (List.replicate 16 0), default, some 101, 16⟩

/-- A packet takes the link that is in service and reaches the server. -/
theorem upstream_integrity_stream : ∃ es N, (network twoSenders).Trace es N ∧
    List.replicate 16 0 ∈ served 0 es ∧
    (∀ b ∈ served 0 es, ∃ i, OwnedBy twoSenders es 0 i ∧ ∃ x ∈ submitted i es, b = x.take mtu) ∧
    ∀ i j, OwnedBy twoSenders es 0 i → OwnedBy twoSenders es 0 j → i = j := by
  obtain ⟨es, N, hes, hsender, hreg3, hget⟩ := twoSenders_registered
  have hconfirm : Sender.step (N.senders true) (.srtlaData 0 (mem reg3Frame) (received reg3Frame) 101
      (fun _ => 0) 0) = some (servedSender, []) := by
    rw [hsender]
    exact step_confirm (c := openLink 0 srcA (Receiver.sampleAddr 1)) rfl rfl (openLink_fd _ _ _) _
  have h₁ := trace_deliver (c := openLink 0 srcA (Receiver.sampleAddr 1)) hes hreg3
    (by rw [hsender]; exact List.mem_cons_of_mem _ List.mem_cons_self) (openLink_fd _ _ _)
    (addressesEqual_refl _) hconfirm
  set N₁ := N.afterSender true (servedSender, []) with hN₁
  have hs₁ : N₁.senders true = servedSender := Function.update_self (f := N.senders) true _
  have hlocal : (Sender.Op.srtData packetEnv).Local (twoSenders.links true) := by
    show NotRegistration (mem (List.replicate 16 0)) 16
    decide
  have h₂ := trace_sender (r := Sender.handleSrtData (N₁.senders true) packetEnv) h₁ hlocal
    (by rw [hs₁]; rfl)
  set d : SockaddrStorage × Bytes := (Receiver.sampleAddr 1, List.replicate 16 0) with hd
  have hwire : (Sender.handleSrtData (N₁.senders true) packetEnv).2.flatMap Sender.Effect.wire =
      [d] := by
    rw [hs₁]
    rfl
  have hup : d ∈ (N₁.afterSender true (Sender.handleSrtData (N₁.senders true) packetEnv)).toReceiver :=
    List.mem_append_right _ (by rw [hwire]; exact List.mem_singleton_self d)
  have h₃ := trace_receive h₂ hup (by decide) 101 Receiver.streamEnv
  refine ⟨_, _, h₃, ?_, upstream_integrity _ twoSenders_halves twoSenders_apart _ _ h₃ 0⟩
  rw [served_concat, served_receiver rfl, Receiver.sendsTo_step (oneId_trace h₂).inv]
  refine List.mem_append_right _ ?_
  show _ ∈ Receiver.relayed 0 ⟨N.receiver, _, _⟩
  rw [Receiver.relayed_of_relayable hget (by decide +kernel), if_pos (by decide +kernel)]
  exact List.mem_singleton_self _

/-- **What comes back was sent by the server of the sender's own group.** In every
    such run a packet handed to the SRT caller of a sender was sent by the SRT
    server on the socket of a group that this sender owns, padded to 32 bytes if
    it was sent to the last address of the group and is shorter; or it is the
    REG_ERR of the receiver. -/
theorem downstream_integrity (D : Deployment ι)
    (hhalves : Function.Injective fun i => (D.cfg i).half) (hlinks : LinksApart D)
    (es : List (Net ι × Act ι)) (N : Net ι) (h : (network D).Trace es N) (i : ι) :
    ∀ b ∈ handedBack i es, b = refusal ∨
      ∃ r, OwnedBy D es r i ∧ ∃ x ∈ answered r es, b = x ∨ b = padWire x :=
  (sourced_trace hhalves hlinks h).handedBack i

/-- A handshake packet of the server. -/
def serverPacket : Bytes := putBe16 srtTypeHandshake ++ List.replicate 14 0

/-- A packet of the server comes back to the caller, padded. -/
theorem downstream_integrity_answer : ∃ es N, (network twoSenders).Trace es N ∧
    padWire serverPacket ∈ handedBack true es ∧
    ∀ b ∈ handedBack true es, b = refusal ∨
      ∃ r, OwnedBy twoSenders es r true ∧ ∃ x ∈ answered r es, b = x ∨ b = padWire x := by
  obtain ⟨es, N, hes, hsender, -, hget⟩ := twoSenders_registered
  set op : Receiver.Op := .srtData 0 ⟨some serverPacket, 101, 0, 32⟩ with hop
  have hinternal : Internal op := by rintro _ ⟨⟩; decide
  have h₁ := trace_receiver hes hinternal
  set d : SockaddrStorage × Bytes := (Receiver.sampleAddr 1, padWire serverPacket) with hd
  have hdown : d ∈ (N.afterReceiver op).toSenders := by
    refine List.mem_append_right _ ?_
    rw [hop, Receiver.step_srtData hget, Receiver.handleSrtData_sent _ _ rfl (by decide),
      if_neg (by decide)]
    exact List.mem_singleton_self _
  have hstep : Sender.step bondedSender
      (.srtlaData 0 (mem d.2) (received d.2) 101 (fun _ => 0) 0) =
        some (bondedSender.putConn { openLink 0 srcA (Receiver.sampleAddr 1) with lastRcvd := 101 },
          [.caller default d.2]) := by
    have htype : getSrtType (mem d.2) (received d.2) = srtTypeHandshake := by decide
    have hget : Keyed.get Sender.Conn.ref 0 bondedSender.conns =
        some (openLink 0 srcA (Receiver.sampleAddr 1)) := rfl
    have hwindow : window (mem d.2) 0 (received d.2) = d.2 :=
      (window_received fun _ _ => rfl).trans (List.take_of_length_le (by decide))
    unfold Sender.step Sender.handleSrtlaData
    dsimp only
    rw [if_neg (by decide), hget]
    dsimp only
    rw [if_neg (by decide), if_neg (by decide), htype, if_neg (by decide), if_neg (by decide),
      Sender.dispatch_of_unnamed (by rw [htype]; decide), Int.toNat_natCast, hwindow]
    rfl
  have hsame : (N.afterReceiver op).senders true = bondedSender := hsender
  rw [← hsame] at hstep
  have h₂ := trace_deliver (c := openLink 0 srcA (Receiver.sampleAddr 1)) h₁ hdown
    (by rw [hsame]; exact List.mem_cons_of_mem _ List.mem_cons_self) (openLink_fd _ _ _)
    (addressesEqual_refl _) hstep
  refine ⟨_, _, h₂, ?_, downstream_integrity _ twoSenders_halves twoSenders_apart _ _ h₂ true⟩
  rw [handedBack_concat]
  refine List.mem_append_right _ ?_
  rw [handedBack_some (by unfold Act.senderOp; exact if_pos rfl) hstep]
  exact List.mem_singleton_self _

end Srtla.System
