import Srtla.Receiver.Handshake
import Srtla.System.Network

/-!
# Schedules

Runs of the system put together from single deliveries. `At` says what is known
of a state along such a run: one sender, the receiver's groups, and some of the
datagrams in flight. Each lemma is one step of a registration, from any such
state:

* `At.unknown`: the receiver knows no group with the id of a REG2 and answers NGP;
* `At.ask`: the link that receives the NGP asks for a group with REG1;
* `At.create`: the receiver creates it and answers REG2;
* `At.adopt`: the sender adopts the id and broadcasts REG2;
* `At.join`: a link joins the group.

`At.registered` takes a sender with two links (`twoLinks`) from its start through
these steps.
-/

namespace Srtla.System

open Lib Receiver

theorem take_regFrame (type : ℕ) (id : SrtlaId) : (regFrame type id).take mtu = regFrame type id :=
  List.take_of_length_le (by rw [length_regFrame]; decide)

theorem padWire_regFrame (type : ℕ) (id : SrtlaId) : padWire (regFrame type id) = regFrame type id := by
  rw [padWire, if_pos (by rw [length_regFrame]; decide)]

variable {ι : Type*} [DecidableEq ι]

/-- A state of a run all of whose steps meet `P`, in which sender `i` is in state
    `s`, the receiver has these groups and hands out `next` as the next identity,
    and the datagrams `up` and `down` were sent. -/
structure At (P : Net ι → Act ι → Prop) (D : Deployment ι) (i : ι) (N : Net ι) (s : Sender.State)
    (groups : List ConnectionGroup) (next : ℕ) (up down : List (SockaddrStorage × Bytes)) :
    Prop where
  reach : (network D).ReachableIf P N
  inv : Inv N.receiver
  sender : N.senders i = s
  groups : N.receiver.groups = groups
  next : N.receiver.nextRef = next
  limiter : N.receiver.limiter = ∅
  up : ∀ d ∈ up, d ∈ N.toReceiver
  down : ∀ d ∈ down, d ∈ N.toSenders

namespace At

variable {P : Net ι → Act ι → Prop} {D : Deployment ι} {i : ι} {N : Net ι} {s : Sender.State}
  {groups groups' : List ConnectionGroup} {next next' : ℕ}
  {up down : List (SockaddrStorage × Bytes)}

theorem start (P : Net ι → Act ι → Prop) (D : Deployment ι) (i : ι) :
    At P D i D.start (D.senders i) [] 0 [] [] :=
  ⟨.init, inv_init, rfl, rfl, rfl, rfl, fun _ h => absurd h List.not_mem_nil,
    fun _ h => absurd h List.not_mem_nil⟩

theorem mono {Q : Net ι → Act ι → Prop} (h : At P D i N s groups next up down)
    (hPQ : ∀ N a, P N a → Q N a) : At Q D i N s groups next up down :=
  { h with reach := h.reach.mono hPQ }

/-- A step of the sender. -/
theorem afterSender (h : At P D i N s groups next up down) {a : Act ι}
    (ha : a.Enabled D.links N) (hP : P N a) {r : Sender.State × List Sender.Effect}
    (hnext : N.next a = some (N.afterSender i r)) :
    ∃ N', At P D i N' r.1 groups next (r.2.flatMap Sender.Effect.wire ++ up) down := by
  refine ⟨_, h.reach.step hP ⟨ha, hnext⟩, h.inv, ?_, h.groups, h.next, h.limiter, ?_, h.down⟩
  · simp [Net.afterSender]
  · intro d hd
    rcases List.mem_append.mp hd with hd | hd
    · exact List.mem_append_right _ hd
    · exact List.mem_append_left _ (h.up d hd)

/-- The sender does something on its own. -/
theorem own (h : At P D i N s groups next up down) (op : Sender.Op) (hop : op.Local (D.links i))
    {r : Sender.State × List Sender.Effect} (hstep : Sender.step s op = some r)
    (hP : P N (.sender i op)) :
    ∃ N', At P D i N' r.1 groups next (r.2.flatMap Sender.Effect.wire ++ up) down := by
  refine h.afterSender (a := .sender i op) hop hP ?_
  rw [Net.next, h.sender, hstep]
  rfl

/-- A datagram arrives at a link. -/
theorem deliver (h : At P D i N s groups next up down) {d : SockaddrStorage × Bytes}
    (hd : d ∈ down) {c : Sender.Conn} (hc : c ∈ s.conns) (hfd : 0 ≤ c.fd)
    (haddr : addressesEqual c.addr d.1 = true) {ts : ℤ} {ret : ℕ → ℤ}
    {r : Sender.State × List Sender.Effect}
    (hstep : Sender.step s (.srtlaData c.ref (mem d.2) (received d.2) ts ret 0) = some r)
    (hP : P N (.deliver i c.ref d (mem d.2) ts ret 0)) :
    ∃ N', At P D i N' r.1 groups next (r.2.flatMap Sender.Effect.wire ++ up) down := by
  have hc' : c ∈ (N.senders i).conns := by rw [h.sender]; exact hc
  refine h.afterSender (a := .deliver i c.ref d (mem d.2) ts ret 0)
    ⟨h.down d hd, ⟨c, hc', rfl, hfd, haddr⟩, fun _ _ => rfl⟩ hP ?_
  rw [Net.next, h.sender, hstep]
  rfl

/-- A datagram arrives at the receiver. -/
theorem receive (h : At P D i N s groups next up down) (out : List (SockaddrStorage × Bytes))
    {d : SockaddrStorage × Bytes} (hd : d ∈ up)
    (hlen : 0 < d.2.length) {ts : ℤ} {env : PacketEnv}
    (hstep : ∀ R : Receiver.State, Inv R → R.groups = groups → R.nextRef = next → R.limiter = ∅ →
      let r := Receiver.step R (.packet (d.2.take mtu) d.1 ts env)
      r.1.groups = groups' ∧ r.1.nextRef = next' ∧ r.1.limiter = ∅ ∧
        ∀ x ∈ out, x ∈ r.2.flatMap Receiver.Effect.wire)
    (hP : P N (.receive d ts env)) :
    ∃ N', At P D i N' s groups' next' up (out ++ down) := by
  obtain ⟨hg, hn, hl, hout⟩ := hstep N.receiver h.inv h.groups h.next h.limiter
  have he : (Act.receive d ts env : Act ι).Enabled D.links N := ⟨h.up d hd, hlen⟩
  refine ⟨_, h.reach.step hP ⟨he, rfl⟩, (step_regStep h.inv _).inv h.inv, h.sender, hg, hn, hl,
    h.up, ?_⟩
  intro x hx
  rcases List.mem_append.mp hx with hx | hx
  · exact List.mem_append_right _ (hout x hx)
  · exact List.mem_append_left _ (h.down x hx)

end At

/-! ## Steps of a sender -/

/-- A registration that was sent is on the wire. -/
theorem wire_regFrame (ref : ℕ) (addr dst : SockaddrStorage) (type : ℕ) (id : SrtlaId) :
    Sender.Effect.wire (.link ref addr dst (regFrame type id) 258) = [(addr, regFrame type id)] := by
  rw [Sender.Effect.wire, length_regFrame]
  rfl

/-- The replies NGP and REG3 as they are on the wire. -/
def ngpFrame : Bytes := padWire (putBe16 srtlaTypeRegNgp)

@[inherit_doc ngpFrame]
def reg3Frame : Bytes := padWire (putBe16 srtlaTypeReg3)

section Sender

variable {s : Sender.State} {c : Sender.Conn} {ts : ℤ} {id : SrtlaId}

/-- A link that gets an NGP when no link is active and no registration is under
    way asks for a group. -/
theorem step_ask (hs : s.exited = false) (hget : Keyed.get Sender.Conn.ref c.ref s.conns = some c)
    (hfd : 0 ≤ c.fd) (hactive : s.activeConnections = 0) (hpending : s.pendingReg2Conn = none)
    (hts : s.pendingRegTimeout < ts) :
    Sender.step s (.srtlaData c.ref (mem ngpFrame) (received ngpFrame) ts (fun _ => 258) 0) =
      some ({ s with
          pendingReg2Conn := some c.ref
          pendingRegTimeout := ts + Sender.reg2Timeout },
        [.link c.ref c.addr s.srtlaAddr (reg1Frame s.srtlaId) 258]) := by
  have htype : getSrtType (mem ngpFrame) (received ngpFrame) = srtlaTypeRegNgp := by decide
  have hpos : ¬ ((received ngpFrame : ℕ) : ℤ) ≤ 0 := by decide
  have hsend : s.sendReg1 c 258 = (0, [.link c.ref c.addr s.srtlaAddr (reg1Frame s.srtlaId) 258]) := by
    rw [Sender.State.sendReg1, if_neg (not_lt.mpr hfd), Sender.State.sendto,
      if_neg (not_lt.mpr hfd)]
    rfl
  unfold Sender.step
  rw [if_neg (by rw [hs]; exact Bool.false_ne_true)]
  dsimp only
  rw [hget]
  dsimp only
  rw [if_neg (not_lt.mpr hfd), Sender.handleSrtlaData, if_neg hpos, if_pos htype, Sender.onRegNgp,
    if_pos ⟨hactive, hpending, hts⟩]
  dsimp only
  rw [hsend, if_pos rfl]

/-- The pending link gets a REG2 with the sender's half: its id is adopted and
    broadcast. -/
theorem step_adopt (hs : s.exited = false) (hget : Keyed.get Sender.Conn.ref c.ref s.conns = some c)
    (hfd : 0 ≤ c.fd) (hpending : s.pendingReg2Conn = some c.ref)
    (hhalf : id.firstHalf = s.srtlaId.firstHalf) :
    Sender.step s
        (.srtlaData c.ref (mem (reg2Frame id)) (received (reg2Frame id)) ts (fun _ => 258) 0) =
      some ({ s with
          srtlaId := id
          pendingReg2Conn := none
          pendingRegTimeout := ts + Sender.reg3Timeout },
        ({ s with srtlaId := id } : Sender.State).broadcastReg2 fun _ => 258) := by
  have hlen : received (reg2Frame id) = 258 := by
    rw [received, reg2Frame, length_regFrame]
    rfl
  have htype : getSrtType (mem (reg2Frame id)) ((258 : ℕ) : ℤ) = srtlaTypeReg2 := by
    have := @getSrtType_regFrame srtlaTypeReg2 (by decide) id
    rw [length_regFrame] at this
    exact this
  unfold Sender.step
  rw [if_neg (by rw [hs]; exact Bool.false_ne_true)]
  dsimp only
  rw [hget]
  dsimp only
  rw [if_neg (not_lt.mpr hfd), Sender.handleSrtlaData, hlen, if_neg (by decide), htype,
    if_neg (by decide), if_pos rfl, Sender.onReg2, if_pos hpending, if_neg]
  · rw [reg2Frame, readBlock_regFrame]
  · rw [reg2Frame, readBlock_regFrame_half]
    exact not_not.mpr hhalf

/-- A link that gets a REG3 is in service. -/
theorem step_confirm (hs : s.exited = false) (hget : Keyed.get Sender.Conn.ref c.ref s.conns = some c)
    (hfd : 0 ≤ c.fd) (ret : ℕ → ℤ) :
    Sender.step s (.srtlaData c.ref (mem reg3Frame) (received reg3Frame) ts ret 0) =
      some ({ s.putConn { c with lastRcvd := ts } with
          hasConnected := true
          activeConnections := s.activeConnections + 1 }, []) := by
  have htype : getSrtType (mem reg3Frame) (received reg3Frame) = srtlaTypeReg3 := by decide
  have hpos : ¬ ((received reg3Frame : ℕ) : ℤ) ≤ 0 := by decide
  unfold Sender.step
  rw [if_neg (by rw [hs]; exact Bool.false_ne_true)]
  dsimp only
  rw [hget]
  dsimp only
  rw [if_neg (not_lt.mpr hfd), Sender.handleSrtlaData, if_neg hpos, htype, if_neg (by decide),
    if_neg (by decide), Sender.dispatch, htype]
  rfl

/-- The datagrams of a broadcast that is sent on every open link. -/
theorem wire_broadcastReg2 (s : Sender.State) :
    (s.broadcastReg2 fun _ => 258).flatMap Sender.Effect.wire =
      (s.conns.filter fun c => decide (0 ≤ c.fd)).map fun c => (c.addr, reg2Frame s.srtlaId) := by
  rw [Sender.State.broadcastReg2, List.flatMap_assoc]
  induction s.conns with
  | nil => rfl
  | cons c conns ih =>
    rw [List.flatMap_cons, ih, List.filter_cons, Sender.State.sendReg2]
    by_cases hfd : c.fd < 0
    · rw [if_pos hfd, if_neg (by simpa using hfd)]
      rfl
    · rw [if_neg hfd, if_pos (by simpa using hfd), Sender.State.sendto, if_neg hfd, List.map_cons,
        List.flatMap_singleton, reg2Frame, wire_regFrame, List.singleton_append]

end Sender

/-! ## Registration, step by step -/

namespace At

variable {P : Net ι → Act ι → Prop} {D : Deployment ι} {i : ι} {N : Net ι} {s : Sender.State}
  {groups : List ConnectionGroup} {next : ℕ} {up down : List (SockaddrStorage × Bytes)}
  {addr : SockaddrStorage} {c : Sender.Conn} {id : SrtlaId}

/-- The outcome of the calls for a reply of two bytes, which is padded. -/
def replyEnv : PacketEnv := { (default : PacketEnv) with sendtoRet := 32 }

/-- The outcome of the calls for a REG1: the answer is sent and the id gets this half. -/
def createEnv (random : IdHalf) : PacketEnv :=
  { (default : PacketEnv) with sendtoRet := 258, random := random }

theorem unknown (h : At P D i N s groups next up down) (addr : SockaddrStorage) (ts : ℤ)
    (hd : (addr, reg2Frame id) ∈ up)
    (hid : findGroupById groups id = none)
    (hP : P N (.receive (addr, reg2Frame id) ts replyEnv)) :
    ∃ N', At P D i N' s groups next up ((addr, ngpFrame) :: down) := by
  refine h.receive [(addr, ngpFrame)] hd (by rw [reg2Frame, length_regFrame]; decide) ?_ hP
  intro R _ hg hn hl
  have hreg : registerConnection R addr (mem (reg2Frame id)) ts replyEnv =
      (-1, R.inc [(.connRegNoGroup, 1)], [regReply srtlaTypeRegNgp addr replyEnv]) := by
    unfold registerConnection
    rw [reg2Frame, readBlock_regFrame, hg, hid]
  dsimp only [Receiver.step]
  rw [reg2Frame, take_regFrame, ← reg2Frame, processSinglePacket_reg2 (isSrtlaReg2_reg2Frame id), hreg]
  refine ⟨hg, hn, hl, fun x hx => ?_⟩
  rw [List.mem_singleton.mp hx]
  exact List.mem_singleton_self _

theorem ask (h : At P D i N s groups next up down) (ts : ℤ) (hd : (c.addr, ngpFrame) ∈ down)
    (hs : s.exited = false) (hget : Keyed.get Sender.Conn.ref c.ref s.conns = some c)
    (hfd : 0 ≤ c.fd) (hactive : s.activeConnections = 0) (hpending : s.pendingReg2Conn = none)
    (hts : s.pendingRegTimeout < ts)
    (hP : P N (.deliver i c.ref (c.addr, ngpFrame) (mem ngpFrame) ts (fun _ => 258) 0)) :
    ∃ N', At P D i N' { s with
        pendingReg2Conn := some c.ref
        pendingRegTimeout := ts + Sender.reg2Timeout } groups next
      ((c.addr, reg1Frame s.srtlaId) :: up) down := by
  obtain ⟨N', h'⟩ := h.deliver hd (Keyed.get_mem hget) hfd (addressesEqual_refl _)
    (step_ask hs hget hfd hactive hpending hts) hP
  rw [List.flatMap_singleton, reg1Frame, wire_regFrame] at h'
  exact ⟨N', h'⟩

theorem create (h : At P D i N s groups next up down) (ts : ℤ) (random : IdHalf)
    (hd : (addr, reg1Frame id) ∈ up) (hroom : groups.length < maxGroups)
    (hfresh : ∀ x ∈ groups, ¬ x.Owns addr)
    (hP : P N (.receive (addr, reg1Frame id) ts (createEnv random))) :
    ∃ N', At P D i N' s (groups ++ [.create next id.firstHalf random ts addr]) (next + 1) up
      ((addr, reg2Frame (.ofHalves id.firstHalf random)) :: down) := by
  refine h.receive [(addr, reg2Frame (.ofHalves id.firstHalf random))] hd
    (by rw [reg1Frame, length_regFrame]; decide) ?_ hP
  intro R hR hg hn hl
  have hb : R.limiter.isBlocked addr ts = false := by
    rw [AuthRateLimiter.isBlocked, hl, AList.lookup_empty]
  obtain ⟨⟨hgroups, hnext, hlim, _⟩, heff⟩ := @step_reg1 R addr ts (createEnv random) id hb
    (by rw [hg]; exact hroom) (by rw [hg]; exact hfresh) rfl
  rw [reg1Frame, take_regFrame, ← reg1Frame]
  refine ⟨?_, hnext.trans (by rw [hn]), hlim.trans hl, ?_⟩
  · rw [hgroups, hg, hn]
    rfl
  · rw [heff, List.flatMap_singleton, Effect.wire, reg2Frame, reg2Frame, padWire_regFrame,
      length_regFrame]
    exact fun x hx => hx

theorem adopt (h : At P D i N s groups next up down) (ts : ℤ) (hd : (c.addr, reg2Frame id) ∈ down)
    (hs : s.exited = false) (hget : Keyed.get Sender.Conn.ref c.ref s.conns = some c)
    (hfd : 0 ≤ c.fd) (hpending : s.pendingReg2Conn = some c.ref)
    (hhalf : id.firstHalf = s.srtlaId.firstHalf)
    (hP : P N (.deliver i c.ref (c.addr, reg2Frame id) (mem (reg2Frame id)) ts (fun _ => 258) 0)) :
    ∃ N', At P D i N' { s with
        srtlaId := id
        pendingReg2Conn := none
        pendingRegTimeout := ts + Sender.reg3Timeout } groups next
      (((s.conns.filter fun c => decide (0 ≤ c.fd)).map fun c => (c.addr, reg2Frame id)) ++ up)
      down := by
  obtain ⟨N', h'⟩ := h.deliver hd (Keyed.get_mem hget) hfd (addressesEqual_refl _)
    (step_adopt hs hget hfd hpending hhalf) hP
  rw [wire_broadcastReg2] at h'
  exact ⟨N', h'⟩

theorem join {g : ConnectionGroup} (h : At P D i N s groups next up down) (addr : SockaddrStorage)
    (ts : ℤ) (hd : (addr, reg2Frame id) ∈ up) (hid : findGroupById groups id = some g)
    (howner : ∀ x ∈ groups, x.Owns addr → x = g)
    (hfresh : ∀ c ∈ g.conns, addressesEqual c.addr addr = false)
    (hroom : g.conns.length < maxConnsPerGroup)
    (hP : P N (.receive (addr, reg2Frame id) ts replyEnv)) :
    ∃ N', At P D i N' s (Keyed.put ConnectionGroup.ref
      { g.addConnection (.create next addr ts) with lastAddr := addr } groups) (next + 1) up
      ((addr, reg3Frame) :: down) := by
  refine h.receive [(addr, reg3Frame)] hd (by rw [reg2Frame, length_regFrame]; decide) ?_ hP
  intro R hR hg hn hl
  have hread : readBlock (mem (reg2Frame id)) 2 256 = id := by
    rw [reg2Frame, readBlock_regFrame]
  obtain ⟨hgroups, hnext, hlim, _⟩ := @step_reg2 R addr ts replyEnv id hR g (by rw [hg]; exact hid)
    (by rw [hg]; exact howner) hfresh hroom rfl
  obtain ⟨heff, _⟩ := @step_reg2_answered R addr ts replyEnv hR (reg2Frame id) g
    (isSrtlaReg2_reg2Frame id) (by rw [hread, hg]; exact hid) (by rw [hg]; exact howner) (fun _ => hroom) rfl
  rw [reg2Frame, take_regFrame, ← reg2Frame]
  refine ⟨?_, hnext.trans (by rw [hn]), hlim.trans hl, fun x hx => ?_⟩
  · rw [hgroups, hg, hn]
  · rw [heff, List.mem_singleton.mp hx]
    exact List.mem_singleton_self _

end At

/-! ## A sender with two links -/

/-- A link bound to `addr`. -/
def openLink (ref : ℕ) (src : Block 4) (addr : SockaddrStorage) : Sender.Conn :=
  { Sender.Conn.create ref src with fd := 4 + ref, addr := addr }

def srcA : Block 4 := ⟨[10, 0, 0, 1], rfl⟩
def srcB : Block 4 := ⟨[10, 0, 0, 2], rfl⟩

/-- The sockets of the links: identity 0 is bound to `a`, every other to `b`. -/
def openEnvs (a b : SockaddrStorage) (ref : ℕ) : Sender.OpenEnv :=
  ⟨4 + ref, 0, 0, if ref = 0 then a else b⟩

/-- Two source addresses, whose sockets get the addresses `a` and `b`. -/
def twoLinksConfig (half : IdHalf) (a b : SockaddrStorage) : Sender.Config where
  lines := [some srcA, some srcB]
  half := half
  listenfd := 3
  bind := 0
  opens := openEnvs a b
  addrs := [default]

/-- The sender with id `id` and both links silent; the rest of its state is the
    pending link, the registration timeout and the times of the last housekeeping. -/
def twoLinks (a b : SockaddrStorage) (id : SrtlaId) (pending : Option ℕ) (timeout : ℤ)
    (lastRan : ℕ) : Sender.State :=
  { Sender.State.zero with
    conns := [openLink 1 srcB b, openLink 0 srcA a]
    activeFds := [4, 5, 3]
    listenfd := 3
    srtlaId := id
    pendingReg2Conn := pending
    pendingRegTimeout := timeout
    allFailedAt := lastRan
    lastRan := lastRan
    nextRef := 2 }

theorem start_twoLinks (half : IdHalf) (a b : SockaddrStorage) :
    Sender.start (twoLinksConfig half a b) =
      some (twoLinks a b (.ofHalves half (zeroBlock 128)) none 0 0) := rfl

theorem openEnvs_addr (a b : SockaddrStorage) (ref : ℕ) :
    (openEnvs a b ref).addr ∈ ({a, b} : Set SockaddrStorage) := by
  unfold openEnvs
  split_ifs
  · exact Or.inl rfl
  · exact Or.inr rfl

/-- Senders with two links each. -/
def ofTwoLinks (half : ι → IdHalf) (a b : ι → SockaddrStorage) : Deployment ι where
  cfg i := twoLinksConfig (half i) (a i) (b i)
  links i := {a i, b i}
  senders i := twoLinks (a i) (b i) (.ofHalves (half i) (zeroBlock 128)) none 0 0
  started i := start_twoLinks (half i) (a i) (b i)
  bound i := openEnvs_addr (a i) (b i)

/-- A half of an id with the same byte everywhere. -/
def fillHalf (x : UInt8) : IdHalf := ⟨List.replicate 128 x, List.length_replicate⟩

theorem fillHalf_inj {x y : UInt8} : fillHalf x = fillHalf y ↔ x = y := by
  simp [fillHalf]

variable {a b : SockaddrStorage} {id : SrtlaId}

/-- The clock and the sockets of the first housekeeping, at 100 seconds. -/
def probeEnv (a b : SockaddrStorage) : Sender.HousekeepingEnv := ⟨some 100000, openEnvs a b, fun _ => 258⟩

theorem step_probe : Sender.step (twoLinks a b id none 0 0) (.housekeeping (probeEnv a b)) =
    some (twoLinks a b id none 0 100000,
      [.link 1 b default (reg2Frame id) 258, .link 0 a default (reg2Frame id) 258]) := by
  have hran : ¬ (twoLinks a b id none 0 0).lastRan + Sender.housekeepingInt > 100000 := by
    show ¬ 0 + 1000 > 100000
    omega
  -- no link is active, and this is noticed for the first time
  have hfailed : ∀ s : Sender.State, s.activeConnections = 0 → s.allFailedAt = 0 →
      s.checkFailed 100000 = { s with allFailedAt := 100000 } := by
    intro s h0 h1
    unfold Sender.State.checkFailed
    rw [if_pos h0, if_pos h1]
    dsimp only
    rw [if_neg (by decide)]
  unfold Sender.step
  rw [if_neg (show ¬ (twoLinks a b id none 0 0).exited = true from Bool.false_ne_true)]
  dsimp only [Sender.connectionHousekeeping, probeEnv]
  rw [if_neg hran, hfailed _ rfl rfl]
  rfl

/-- The links are open. -/
theorem openLink_fd (ref : ℕ) (src : Block 4) (addr : SockaddrStorage) :
    0 ≤ (openLink ref src addr).fd := by
  show (0 : ℤ) ≤ 4 + ref
  omega

/-! ## The first registration -/

/-- A step that finds no connection at the receiver and, if it is the arrival of a
    REG2 there, one with the id that sender `i` has. -/
def Early (i : ι) (N : Net ι) (act : Act ι) : Prop :=
  (∀ g ∈ N.receiver.groups, g.conns = []) ∧
    ∀ d ts env, act = .receive d ts env →
      isSrtlaReg2 (mem (d.2.take mtu)) (d.2.take mtu).length = true →
        readBlock (mem (d.2.take mtu)) 2 256 = (N.senders i).srtlaId

namespace At

variable {P : Net ι → Act ι → Prop} {D : Deployment ι} {i : ι} {N : Net ι} {s : Sender.State}
  {groups : List ConnectionGroup} {next : ℕ} {up down : List (SockaddrStorage × Bytes)}
  {addr : SockaddrStorage} {ts : ℤ} {env : PacketEnv}

theorem probe (h : At P D i N (twoLinks a b id none 0 0) groups next up down)
    (hlinks : ∀ ref, (openEnvs a b ref).addr ∈ D.links i)
    (hP : P N (.sender i (.housekeeping (probeEnv a b)))) :
    ∃ N', At P D i N' (twoLinks a b id none 0 100000) groups next
      ((b, reg2Frame id) :: (a, reg2Frame id) :: up) down := by
  obtain ⟨N', h'⟩ := h.own (.housekeeping (probeEnv a b)) hlinks step_probe hP
  rw [List.flatMap_cons, List.flatMap_singleton, reg2Frame, wire_regFrame, wire_regFrame] at h'
  exact ⟨N', h'⟩

theorem early_of_ne (h : At P D i N s groups next up down) (hg : ∀ g ∈ groups, g.conns = [])
    {act : Act ι} (hact : ∀ d ts env, act ≠ .receive d ts env) : Early i N act :=
  ⟨by rw [h.groups]; exact hg, fun d ts env he => absurd he (hact d ts env)⟩

theorem early_reg1 (h : At P D i N s groups next up down) (hg : ∀ g ∈ groups, g.conns = []) :
    Early i N (.receive (addr, reg1Frame id) ts env) := by
  refine ⟨by rw [h.groups]; exact hg, ?_⟩
  rintro _ _ _ ⟨⟩ hreg2
  rw [reg1Frame, take_regFrame, ← reg1Frame] at hreg2
  have hreg1 := not_isSrtlaReg1_of_isSrtlaReg2 hreg2
  rw [isSrtlaReg1_reg1Frame] at hreg1
  exact absurd hreg1 (by decide)

theorem early_reg2 (h : At P D i N s groups next up down) (hg : ∀ g ∈ groups, g.conns = [])
    (hid : id = s.srtlaId) : Early i N (.receive (addr, reg2Frame id) ts env) := by
  refine ⟨by rw [h.groups]; exact hg, ?_⟩
  rintro _ _ _ ⟨⟩ -
  rw [reg2Frame, take_regFrame, readBlock_regFrame, h.sender, hid]

/-- The first registration, at 100 seconds: both links announce the initial id, the
    link at `a` asks for a group and joins it. Its REG3 and the NGP for the link at
    `b` are still on their way. -/
theorem registered (half : ι → IdHalf) (a b : ι → SockaddrStorage) (i : ι) (random : IdHalf) :
    ∃ N up down, (a i, reg3Frame) ∈ down ∧ (b i, ngpFrame) ∈ down ∧
      At (Early i) (ofTwoLinks half a b) i N
        (twoLinks (a i) (b i) (.ofHalves (half i) random) none 104 100000)
        [handshakeGroup (.ofHalves (half i) (zeroBlock 128)) random (a i) (a i) 100 100] 2 up down := by
  set id := SrtlaId.ofHalves (half i) (zeroBlock 128) with hid
  have hhalf : id.firstHalf = half i := SrtlaId.firstHalf_ofHalves _ _
  set g := ConnectionGroup.create 0 id.firstHalf random 100 (a i)
  have hnil : ∀ x ∈ ([] : List ConnectionGroup), x.conns = [] := fun x hx => absurd hx List.not_mem_nil
  have hempty : ∀ x ∈ [g], x.conns = [] := fun x hx => by rw [List.mem_singleton.mp hx]; rfl
  have h₀ : At (Early i) _ i _ (twoLinks (a i) (b i) id none 0 0) [] 0 [] [] :=
    At.start _ (ofTwoLinks half a b) i
  obtain ⟨N₁, h₁⟩ := h₀.probe (openEnvs_addr _ _) (h₀.early_of_ne hnil (by rintro _ _ _ ⟨⟩))
  obtain ⟨N₂, h₂⟩ := h₁.unknown (a i) 100
    (List.mem_cons_of_mem _ List.mem_cons_self) rfl (h₁.early_reg2 hnil rfl)
  obtain ⟨N₃, h₃⟩ := h₂.unknown (b i) 100 List.mem_cons_self rfl
    (h₂.early_reg2 hnil rfl)
  obtain ⟨N₄, h₄⟩ := h₃.ask (c := openLink 0 srcA (a i)) 100
    (List.mem_cons_of_mem _ List.mem_cons_self) rfl rfl (openLink_fd _ _ _) rfl rfl
    (show (0 : ℤ) < 100 by decide) (h₃.early_of_ne hnil (by rintro _ _ _ ⟨⟩))
  obtain ⟨N₅, h₅⟩ := h₄.create 100 random List.mem_cons_self (by decide)
    (fun x hx => absurd hx List.not_mem_nil) (h₄.early_reg1 hnil)
  obtain ⟨N₆, h₆⟩ := h₅.adopt (c := openLink 0 srcA (a i)) 100 List.mem_cons_self rfl rfl
    (openLink_fd _ _ _) rfl (SrtlaId.firstHalf_ofHalves _ _)
    (h₅.early_of_ne hempty (by rintro _ _ _ ⟨⟩))
  obtain ⟨N₇, h₇⟩ := h₆.join (a i) 100
    (List.mem_cons_of_mem _ List.mem_cons_self) (findGroupById_self g [])
    (fun x hx _ => List.mem_singleton.mp hx) (fun c hc => absurd hc List.not_mem_nil)
    (by show 0 < maxConnsPerGroup; decide) (h₆.early_reg2 hempty rfl)
  rw [← hhalf]
  exact ⟨N₇, _, _, List.mem_cons_self, List.mem_cons_of_mem _ (List.mem_cons_of_mem _ List.mem_cons_self), h₇⟩

end At

/-- One sender; its two links differ in the port. -/
def oneSender : Deployment Unit :=
  ofTwoLinks (fun _ => fillHalf 1) (fun _ => sampleAddr 1) fun _ => sampleAddr 2

/-- Two senders with two links each. -/
def twoSenders : Deployment Bool :=
  ofTwoLinks (fun i => fillHalf (if i then 1 else 2)) (fun i => sampleAddr (if i then 1 else 3))
    fun i => sampleAddr (if i then 2 else 4)

theorem twoSenders_halves : Function.Injective fun i => (twoSenders.cfg i).half := by
  intro i j hij
  have := fillHalf_inj.mp hij
  revert this
  cases i <;> cases j <;> decide

theorem twoSenders_apart : ∀ i j, i ≠ j → ∀ a ∈ twoSenders.links i, ∀ b ∈ twoSenders.links j,
    addressesEqual a b = false := by
  rintro i j hij x (rfl | rfl) y (rfl | rfl)
  all_goals
    refine sampleAddr_ne ?_
    revert hij
    cases i <;> cases j <;> decide

end Srtla.System
