import Srtla.Lib.Batch
import Srtla.Receiver.Lifetime
import Srtla.Receiver.Sent
import Srtla.Sender.Handlers

/-!
# SRTLA acknowledgements, from the receiver's log to the sender's decoder

The receiver logs the sequence number of every data packet of a connection and
sends the log as an SRTLA ACK whenever it is full. The log is a `Batch` of size
`RECV_ACK_INT` (`registered_pending`, `registerPacket_batches`); the defensive
reset of its index is never taken.

* `acks_exact`: over the whole life of a connection, the numbers in its ACK
  frames followed by those still in the log are the sequence numbers of its data
  packets, in order. A frame has `RECV_ACK_INT` numbers, it is not padded, and
  the sender's handler registers exactly these numbers.
-/

namespace Srtla.Receiver

open Lib

/-! ## The log of a connection -/

/-- The entries of the log are images of sequence numbers. -/
def Connection.Logged (c : Connection) : Prop := ∀ w ∈ c.recvLog, ∃ v < 2 ^ 31, w = putBe32 v

/-- The numbers in `recv_log[0 .. recv_index)`. -/
def Connection.pending (c : Connection) : List ℕ :=
  (c.recvLog.take c.recvIdx.toNat).map fun w => be32 (mem w) 0

/-- The `srtla_ack_pkt` that carries the numbers `ns`. -/
def ackPacket (ns : List ℕ) : Bytes := putBe32 (srtlaTypeAck <<< 16) ++ putWords ns

variable {c c' : Connection} {sn : ℤ}

theorem Connection.SameCore.pending (h : c.SameCore c') : c'.pending = c.pending := by
  unfold Connection.pending
  rw [h.recvLog, h.recvIdx]

theorem Connection.SameCore.logged (h : c.SameCore c') (hc : c.Logged) : c'.Logged := by
  unfold Connection.Logged
  rw [h.recvLog]
  exact hc

theorem Connection.InRange.length_pending (h : c.InRange) : c.pending.length = c.recvIdx.toNat := by
  have hlt := h.2
  rw [Connection.pending, List.length_map, List.length_take, c.recvLog_length]
  omega

/-- A number is logged in the first slot that is not pending. -/
theorem Connection.InRange.logPacket_recvLog (h : c.InRange) (sn : ℤ) :
    (c.logPacket sn).recvLog = c.recvLog.set c.recvIdx.toNat (putBe32 sn.toNat) := by
  have hidx := h.logPacket_recvIdx sn
  show c.recvLog.set ((c.logPacket sn).recvIdx - 1).toNat _ = _
  rw [hidx, Int.add_sub_cancel]

theorem Connection.InRange.logPacket_pending (h : c.InRange) (h1 : sn < 2 ^ 31) :
    (c.logPacket sn).pending = c.pending ++ [sn.toNat] := by
  have hlt := h.2
  have hpos := h.1
  have hlen : (c.recvLog.take c.recvIdx.toNat ++ [putBe32 sn.toNat]).length =
      (c.recvIdx + 1).toNat := by
    rw [List.length_append, List.length_take, c.recvLog_length, List.length_singleton]
    omega
  have htake : (c.logPacket sn).recvLog.take (c.recvIdx + 1).toNat =
      c.recvLog.take c.recvIdx.toNat ++ [putBe32 sn.toNat] := by
    rw [h.logPacket_recvLog, List.set_eq_take_append_cons_drop,
      if_pos (by rw [c.recvLog_length]; omega), List.append_cons]
    exact List.take_left' hlen
  rw [Connection.pending, h.logPacket_recvIdx, htake, List.map_append, List.map_singleton,
    be32_mem_putBe32 (by omega)]
  rfl

theorem Connection.Logged.logPacket (hl : c.Logged) (h : c.InRange) (h1 : sn < 2 ^ 31) :
    (c.logPacket sn).Logged := by
  intro w hw
  rw [h.logPacket_recvLog] at hw
  rcases List.mem_or_eq_of_mem_set hw with hw | rfl
  · exact hl w hw
  · exact ⟨sn.toNat, by omega, rfl⟩

/-- The frame of a full log carries its numbers. -/
theorem Connection.Logged.ackFrame_eq (hl : c.Logged) (h : c.recvIdx = recvAckInt) :
    c.ackFrame = ackPacket c.pending := by
  have hall : c.recvLog.take c.recvIdx.toNat = c.recvLog := by
    rw [h]
    exact List.take_of_length_le c.recvLog_length.le
  have hwords : ∀ l : List Bytes, (∀ w ∈ l, ∃ v < 2 ^ 31, w = putBe32 v) →
      l.flatten = putWords (l.map fun w => be32 (mem w) 0) := by
    intro l hl
    rw [putWords, List.flatMap_map, List.flatMap_def, ← List.map_id l, List.map_map]
    refine congrArg List.flatten (List.map_congr_left ?_)
    intro w hw
    obtain ⟨v, hv, rfl⟩ := hl w hw
    show putBe32 v = putBe32 (be32 (mem (putBe32 v)) 0)
    rw [be32_mem_putBe32 (by omega)]
  rw [Connection.ackFrame, ackPacket, Connection.pending, hall, hwords c.recvLog hl]

/-! ## The log is a batch -/

/-- `register_packet` puts the number into the batch. -/
theorem Connection.InRange.registered_pending (h : c.InRange) (h1 : sn < 2 ^ 31) :
    (c.registered sn).pending = (Batch.push recvAckInt c.pending sn.toNat).2 := by
  have hlen := h.length_pending
  have hidx := h.logPacket_recvIdx sn
  have hpos := h.1
  unfold Connection.registered
  by_cases hfull : (c.logPacket sn).recvIdx = recvAckInt
  · rw [if_pos hfull, Batch.push_of_full (by omega)]
    rfl
  · rw [if_neg hfull, Batch.push_of_not_full (by omega), h.logPacket_pending h1]

/-- The frames `register_packet` sends are the batches that are complete. -/
theorem Connection.InRange.registerPacket_batches (h : c.InRange) (hl : c.Logged)
    (h1 : sn < 2 ^ 31) (env : PacketEnv) :
    (registerPacket c sn env).2.1 = (Batch.push recvAckInt c.pending sn.toNat).1.map
      fun ns => .padSendto (.ack c.ref) c.addr (ackPacket ns) env.sendtoRet := by
  have hlen := h.length_pending
  have hidx := h.logPacket_recvIdx sn
  have hpos := h.1
  rw [registerPacket_effects]
  by_cases hfull : (c.logPacket sn).recvIdx = recvAckInt
  · rw [if_pos hfull, Batch.push_of_full (by omega), (hl.logPacket h h1).ackFrame_eq hfull,
      h.logPacket_pending h1]
    rfl
  · rw [if_neg hfull, Batch.push_of_not_full (by omega)]
    rfl

theorem Connection.Logged.registered (hl : c.Logged) (h : c.InRange) (h1 : sn < 2 ^ 31) :
    (c.registered sn).Logged := by
  unfold Connection.registered
  split_ifs
  · exact hl.logPacket h h1
  · exact hl.logPacket h h1

theorem Connection.touch_log (c : Connection) (ts : ℤ) :
    (c.touch ts).1.pending = c.pending ∧ (c.Logged → (c.touch ts).1.Logged) ∧
      (c.InRange → (c.touch ts).1.InRange) := by
  rw [c.touch_eq]
  exact ⟨rfl, id, id⟩

theorem getSrtSn_of_isDataPacket {buf : Bytes} (h : isDataPacket buf = true) :
    getSrtSn (mem buf) buf.length < 2 ^ 31 ∧
      (getSrtSn (mem buf) buf.length).toNat = be32 (mem buf) 0 := by
  obtain ⟨hlen, hlt⟩ := isDataPacket_iff.mp h
  simp only [srtMinLen] at hlen
  rw [getSrtSn_eq (by omega), if_pos hlt]
  exact ⟨by omega, rfl⟩

/-- A data packet on a connection puts its sequence number into the batch. -/
theorem Connection.received_of_data {buf : Bytes} (hl : c.Logged) (h : c.InRange)
    (hd : isDataPacket buf = true) (ts : ℤ) (env : PacketEnv) :
    (c.received buf ts).pending = (Batch.push recvAckInt c.pending (be32 (mem buf) 0)).2 ∧
    (c.received buf ts).Logged ∧
    (registerPacket (c.touch ts).1 (getSrtSn (mem buf) buf.length) env).2.1 =
      (Batch.push recvAckInt c.pending (be32 (mem buf) 0)).1.map
        fun ns => .padSendto (.ack c.ref) c.addr (ackPacket ns) env.sendtoRet := by
  obtain ⟨hsn, hnat⟩ := getSrtSn_of_isDataPacket hd
  obtain ⟨hpend, hlog, hrange⟩ := c.touch_log ts
  have hb := (hrange h).registerPacket_batches (hlog hl) hsn env
  rw [hpend, hnat, c.touch_ref, c.touch_addr] at hb
  unfold Connection.received
  rw [if_pos hd]
  refine ⟨?_, (hlog hl).registered (hrange h) hsn, hb⟩
  rw [(hrange h).registered_pending hsn, hpend, hnat]

theorem Connection.received_of_not_data {buf : Bytes} (hd : isDataPacket buf = false) (ts : ℤ) :
    (c.received buf ts).pending = c.pending ∧ (c.Logged → (c.received buf ts).Logged) := by
  unfold Connection.received
  rw [hd]
  exact ⟨(c.touch_log ts).1, (c.touch_log ts).2.1⟩

/-! ## Histories -/

/-- The frame an effect hands to `pad_sendto` as an SRTLA ACK of connection `r`;
    `ackFrame_addr` says for which address. -/
def Effect.ackFrame (r : ℕ) : Effect → Option Bytes
  | .padSendto (.ack conn) _ buf _ => if conn = r then some buf else none
  | _ => none

/-- The SRTLA ACK frames of connection `r`, in sending order. -/
def ackFrames (r : ℕ) (es : List (Machine.Event State Op Effect)) : List Bytes :=
  es.flatMap fun e => e.outs.filterMap (Effect.ackFrame r)

/-- The numbers a frame carries: its words after the type word. -/
def ackNumbers (frame : Bytes) : List ℕ := words (mem frame) 4 (frame.length / 4 - 1)

/-- The sequence number of a step that processes a data packet on connection `r`. -/
def dataNumber (r : ℕ) (e : Machine.Event State Op Effect) : List ℕ :=
  match e.input with
  | .packet buf addr _ _ =>
    if isDataPacket buf && ((findByAddress e.pre.groups addr).bind Prod.snd).any
        fun c => decide (c.ref = r) then [be32 (mem buf) 0]
    else []
  | _ => []

/-- The sequence numbers of the data packets processed on connection `r`. -/
def dataNumbers (r : ℕ) (es : List (Machine.Event State Op Effect)) : List ℕ :=
  es.flatMap (dataNumber r)

/-- The numbers acknowledged on connection `r`. -/
def ackedNumbers (r : ℕ) (es : List (Machine.Event State Op Effect)) : List ℕ :=
  (ackFrames r es).flatMap ackNumbers

variable {s : State} {g : ConnectionGroup}

theorem ackPacket_spec {ns : List ℕ} (hlen : ns.length = recvAckInt) (hlt : ∀ n ∈ ns, n < 2 ^ 31) :
    (ackPacket ns).length = 44 ∧ ackNumbers (ackPacket ns) = ns := by
  have hframe : (ackPacket ns).length = 44 := by
    rw [ackPacket, List.length_append, length_putBe32, length_putWords, hlen]
    rfl
  refine ⟨hframe, ?_⟩
  have hwords := words_putWords (putBe32 (srtlaTypeAck <<< 16)) fun n hn => (hlt n hn).trans (by decide)
  rw [length_putBe32, hlen] at hwords
  rw [ackNumbers, hframe]
  exact hwords

/-- Connections of the registry with one identity are one. -/
theorem Inv.conn_eq (h : Inv s) {g' : ConnectionGroup} (hg : g ∈ s.groups) (hc : c ∈ g.conns)
    (hg' : g' ∈ s.groups) (hc' : c' ∈ g'.conns) (href : c.ref = c'.ref) : g = g' ∧ c = c' := by
  rcases h.eq_or_apart hg hg' with rfl | ha
  · exact ⟨rfl, Keyed.eq_of_key_eq (h.wf g hg).connRefs hc hc' href⟩
  · exact absurd href (ha.2 c hc c' hc')

/-- An ACK goes to the address of its connection. -/
theorem ackFrame_addr (h : Inv s) {r : ℕ} {op : Op} {addr : SockaddrStorage} {frame : Bytes}
    {ret : ℤ} (he : .padSendto (.ack r) addr frame ret ∈ (step s op).2) :
    ∃ g ∈ s.groups, ∃ c ∈ g.conns, c.ref = r ∧ c.addr = addr := by
  cases step_effects h op _ he with
  | ack _ hfound _ =>
    obtain ⟨hg, hc, _⟩ := findByAddress_conn hfound
    exact ⟨_, hg, _, hc, rfl, rfl⟩

/-- A step sends an ACK of connection `r` only for a data packet on it. -/
theorem ackFrame_origin (h : Inv s) {r : ℕ} {op : Op} {e : Effect} (he : e ∈ (step s op).2)
    {frame : Bytes} (hf : e.ackFrame r = some frame) :
    ∃ buf addr ts env g c, op = .packet buf addr ts env ∧ isDataPacket buf = true ∧
      findByAddress s.groups addr = some (g, some c) ∧ c.ref = r := by
  cases step_effects h op e he with
  | @ack buf addr ts env g c hd hfound _ =>
    refine ⟨buf, addr, ts, env, g, c, rfl, hd, hfound, ?_⟩
    by_contra hne
    rw [Effect.ackFrame, if_neg hne] at hf
    cases hf
  | reply | reg2 | echo | forward | downstream | broadcast | keepalive => cases hf

theorem dataNumber_origin {r : ℕ} {op : Op} {outs : List Effect}
    (hd : dataNumber r ⟨s, op, outs⟩ ≠ []) :
    ∃ buf addr ts env g c, op = .packet buf addr ts env ∧ isDataPacket buf = true ∧
      findByAddress s.groups addr = some (g, some c) ∧ c.ref = r := by
  cases op with
  | packet buf addr ts env =>
    unfold dataNumber at hd
    dsimp only at hd
    split_ifs at hd with hcond
    · rw [Bool.and_eq_true] at hcond
      cases hf : findByAddress s.groups addr with
      | none => rw [hf] at hcond; exact absurd hcond.2 (by simp)
      | some p =>
        obtain ⟨g, oc⟩ := p
        cases oc with
        | none => rw [hf] at hcond; exact absurd hcond.2 (by simp)
        | some c =>
          rw [hf] at hcond
          exact ⟨buf, addr, ts, env, g, c, rfl, hcond.1, hf, by simpa using hcond.2⟩
    · exact absurd rfl hd
  | srtData | evict | cleanup | limiterCleanup | quality | count => exact absurd rfl hd

theorem Connection.Logged.pending_lt (hl : c.Logged) : ∀ n ∈ c.pending, n < 2 ^ 31 := by
  intro n hn
  obtain ⟨w, hw, rfl⟩ := List.mem_map.mp hn
  obtain ⟨v, hv, rfl⟩ := hl w (List.mem_of_mem_take hw)
  rw [be32_mem_putBe32 (by omega)]
  exact hv

/-! ## One step -/

/-- The input is a data packet from the connection's address. -/
def DataOn (op : Op) (c : Connection) : Prop :=
  ∃ buf addr ts env, op = .packet buf addr ts env ∧ isDataPacket buf = true ∧
    addressesEqual c.addr addr = true

/-- What a step sends and logs for a connection `c`: `batches` are the complete
    batches, one for each ACK frame. -/
structure AckStep (s : State) (op : Op) (c : Connection) (batches : List (List ℕ)) : Prop where
  frames : (step s op).2.filterMap (Effect.ackFrame c.ref) = batches.map ackPacket
  size : ∀ ns ∈ batches, ns.length = recvAckInt ∧ ∀ n ∈ ns, n < 2 ^ 31
  numbers : batches.flatten ++ (op.onConn c).pending =
    c.pending ++ dataNumber c.ref ⟨s, op, (step s op).2⟩
  logged : (op.onConn c).Logged

theorem ackStep_of_data (h : Inv s) (hg : g ∈ s.groups) (hc : c ∈ g.conns) (hl : c.Logged)
    {op : Op} (hop : DataOn op c) : ∃ batches, AckStep s op c batches := by
  obtain ⟨buf, addr, ts, env, rfl, hd, ha⟩ := hop
  obtain ⟨h1, h2⟩ := not_isSrtlaReg_of_isDataPacket hd
  have hwf := h.wf g hg
  have hf := findByAddress_owner h (List.Perm.refl _) hg (Or.inl ⟨c, hc, ha⟩)
  rw [(find_conn_eq_some_iff hwf).mpr ⟨hc, ha⟩] at hf
  have hkeep : ¬ isSrtlaKeepalive (mem buf) buf.length = true := by
    have hlt := getSrtType_lt_of_isDataPacket hd
    unfold isSrtlaKeepalive
    rw [beq_iff_eq]
    intro heq
    rw [heq] at hlt
    exact absurd hlt (by decide)
  obtain ⟨hpend, hlog, heff⟩ := c.received_of_data hl (hwf.inRange c hc) hd ts env
  have honc : (Op.packet buf addr ts env).onConn c = c.received buf ts := Op.onConn_of_eq h1 h2 ha
  have hdata : dataNumber c.ref ⟨s, .packet buf addr ts env, (step s (.packet buf addr ts env)).2⟩ =
      [be32 (mem buf) 0] := by
    unfold dataNumber
    dsimp only
    rw [hf, hd]
    simp
  refine ⟨(Batch.push recvAckInt c.pending (be32 (mem buf) 0)).1, ?_, ?_, ?_, ?_⟩
  · -- the frames of the packet, then at most a forward, which is no ACK
    show (processSinglePacket s buf addr ts env).2.filterMap _ = _
    rw [processSinglePacket_conn_effects h1 h2 hf, onPacket_effects hwf.connRefs hc, if_neg hkeep,
      if_pos hd, heff, List.filterMap_append, List.filterMap_map]
    have hforward : ∀ (b : Bool) (e : Effect), e.ackFrame c.ref = none →
        (if b then [e] else []).filterMap (Effect.ackFrame c.ref) = [] := by
      intro b e he
      cases b <;> simp [he]
    rw [hforward _ _ rfl, List.append_nil, ← List.filterMap_eq_map]
    congr 1
    funext ns
    show (if c.ref = c.ref then some (ackPacket ns) else none) = _
    rw [if_pos rfl]
    rfl
  · intro ns hns
    refine ⟨Batch.length_of_mem_push hns, ?_⟩
    intro n hn
    have hmem : n ∈ c.pending ++ [be32 (mem buf) 0] := by
      rw [← Batch.push_flatten recvAckInt]
      exact List.mem_append_left _ (List.mem_flatten.mpr ⟨ns, hns, hn⟩)
    rcases List.mem_append.mp hmem with hn | hn
    · exact hl.pending_lt n hn
    · rw [List.mem_singleton.mp hn]
      exact (isDataPacket_iff.mp hd).2
  · rw [hdata, honc, hpend, Batch.push_flatten]
  · rw [honc]
    exact hlog

theorem ackStep_of_not_data (h : Inv s) (hg : g ∈ s.groups) (hc : c ∈ g.conns) (hl : c.Logged)
    {op : Op} (hop : ¬ DataOn op c) : AckStep s op c [] := by
  -- a data packet resolved to an object with this identity would be on `c`
  have hno : ∀ buf addr ts env g' c', op = .packet buf addr ts env → isDataPacket buf = true →
      findByAddress s.groups addr = some (g', some c') → c'.ref ≠ c.ref := by
    intro buf addr ts env g' c' heq hd hf href
    obtain ⟨hg', hc', ha⟩ := findByAddress_conn hf
    rw [(h.conn_eq hg' hc' hg hc href).2] at ha
    exact hop ⟨buf, addr, ts, env, heq, hd, ha⟩
  have hframes : (step s op).2.filterMap (Effect.ackFrame c.ref) = [] := by
    apply List.filterMap_eq_nil_iff.mpr
    intro e he
    cases hf : e.ackFrame c.ref with
    | none => rfl
    | some frame =>
      obtain ⟨buf, addr, ts, env, g', c', heq, hd, hfound, href⟩ := ackFrame_origin h he hf
      exact absurd href (hno buf addr ts env g' c' heq hd hfound)
  have hdata : dataNumber c.ref ⟨s, op, (step s op).2⟩ = [] := by
    by_contra hne
    obtain ⟨buf, addr, ts, env, g', c', heq, hd, hfound, href⟩ := dataNumber_origin hne
    exact hno buf addr ts env g' c' heq hd hfound href
  have hconn : (op.onConn c).pending = c.pending ∧ (op.onConn c).Logged := by
    cases op with
    | packet buf addr ts env =>
      unfold Op.onConn
      dsimp only
      split_ifs with hreg ha
      · exact ⟨rfl, hl⟩
      · have hd : isDataPacket buf = false := by
          rw [← Bool.not_eq_true]
          exact fun hd => hop ⟨buf, addr, ts, env, rfl, hd, ha⟩
        exact ⟨(c.received_of_not_data hd ts).1, (c.received_of_not_data hd ts).2 hl⟩
      · exact ⟨rfl, hl⟩
    | srtData | evict | cleanup | limiterCleanup | quality | count => exact ⟨rfl, hl⟩
  refine ⟨hframes, fun ns hns => absurd hns List.not_mem_nil, ?_, hconn.2⟩
  rw [hdata, hconn.1, List.append_nil]
  rfl

theorem ackStep (h : Inv s) (hg : g ∈ s.groups) (hc : c ∈ g.conns) (hl : c.Logged) (op : Op) :
    ∃ batches, AckStep s op c batches := by
  by_cases hop : DataOn op c
  · exact ackStep_of_data h hg hc hl hop
  · exact ⟨[], ackStep_of_not_data h hg hc hl hop⟩

/-! ## Whole runs -/

theorem ackFrames_concat (r : ℕ) (es : List (Machine.Event State Op Effect))
    (e : Machine.Event State Op Effect) :
    ackFrames r (es ++ [e]) = ackFrames r es ++ e.outs.filterMap (Effect.ackFrame r) := by
  simp [ackFrames]

theorem dataNumbers_concat (r : ℕ) (es : List (Machine.Event State Op Effect))
    (e : Machine.Event State Op Effect) :
    dataNumbers r (es ++ [e]) = dataNumbers r es ++ dataNumber r e := by
  simp [dataNumbers]

/-- The history `es` leads to `s`, and the two agree on what was logged and
    acknowledged. Identities not handed out yet have no history. -/
structure AckHistory (es : List (Machine.Event State Op Effect)) (s : State) : Prop where
  inv : Inv s
  logged : ∀ g ∈ s.groups, ∀ c ∈ g.conns, c.Logged
  exact : ∀ g ∈ s.groups, ∀ c ∈ g.conns, ackedNumbers c.ref es ++ c.pending = dataNumbers c.ref es
  fresh : ∀ r, s.nextRef ≤ r → ackFrames r es = [] ∧ dataNumbers r es = []
  frames : ∀ r, ∀ frame ∈ ackFrames r es, ∃ ns : List ℕ, ns.length = recvAckInt ∧
    (∀ n ∈ ns, n < 2 ^ 31) ∧ frame = ackPacket ns

namespace AckHistory

variable {es : List (Machine.Event State Op Effect)}

/-- The step of one connection: `c'` is what the input makes of `c`. -/
theorem conn_exact (h : AckHistory es s) (hg : g ∈ s.groups) (hc : c ∈ g.conns) (op : Op)
    (hcore : (op.onConn c).SameCore c') :
    ackedNumbers c'.ref (es ++ [⟨s, op, (step s op).2⟩]) ++ c'.pending =
      dataNumbers c'.ref (es ++ [⟨s, op, (step s op).2⟩]) := by
  obtain ⟨batches, hstep⟩ := ackStep h.inv hg hc (h.logged g hg c hc) op
  have href : c'.ref = c.ref := hcore.ref.trans (op.onConn_ref c)
  have hflat : (batches.map ackPacket).flatMap ackNumbers = batches.flatten := by
    rw [List.flatMap_map, List.flatMap_def]
    conv_rhs => rw [← List.map_id batches]
    refine congrArg List.flatten (List.map_congr_left ?_)
    intro ns hns
    obtain ⟨hlen, hlt⟩ := hstep.size ns hns
    exact (ackPacket_spec hlen hlt).2
  have hacked : ackedNumbers c.ref (es ++ [⟨s, op, (step s op).2⟩]) =
      ackedNumbers c.ref es ++ batches.flatten := by
    rw [ackedNumbers, ackFrames_concat, List.flatMap_append, hstep.frames, hflat, ackedNumbers]
  rw [href, hacked, hcore.pending, List.append_assoc, hstep.numbers, ← List.append_assoc,
    h.exact g hg c hc, dataNumbers_concat]

theorem step_fresh (h : AckHistory es s) (op : Op) {r : ℕ} (hr : s.nextRef ≤ r) :
    ackFrames r (es ++ [⟨s, op, (step s op).2⟩]) = [] ∧
      dataNumbers r (es ++ [⟨s, op, (step s op).2⟩]) = [] := by
  obtain ⟨hf, hd⟩ := h.fresh r hr
  have hlt : ∀ {addr : SockaddrStorage} {g : ConnectionGroup} {c : Connection},
      findByAddress s.groups addr = some (g, some c) → c.ref ≠ r := by
    intro addr g c hfound href
    obtain ⟨hg, hc, _⟩ := findByAddress_conn hfound
    have := (h.inv.wf g hg).connRefs_lt c hc
    omega
  rw [ackFrames_concat, dataNumbers_concat, hf, hd, List.nil_append, List.nil_append]
  constructor
  · apply List.filterMap_eq_nil_iff.mpr
    intro e he
    cases hfr : e.ackFrame r with
    | none => rfl
    | some frame =>
      obtain ⟨_, _, _, _, _, _, _, _, hfound, href⟩ := ackFrame_origin h.inv he hfr
      exact absurd href (hlt hfound)
  · by_contra hne
    obtain ⟨_, _, _, _, _, _, _, _, hfound, href⟩ := dataNumber_origin hne
    exact hlt hfound href

theorem step_frames (h : AckHistory es s) (op : Op) {r : ℕ} {frame : Bytes}
    (hf : frame ∈ ackFrames r (es ++ [⟨s, op, (step s op).2⟩])) :
    ∃ ns : List ℕ, ns.length = recvAckInt ∧ (∀ n ∈ ns, n < 2 ^ 31) ∧ frame = ackPacket ns := by
  rw [ackFrames_concat] at hf
  rcases List.mem_append.mp hf with hf | hf
  · exact h.frames r frame hf
  · obtain ⟨e, he, hfr⟩ := List.mem_filterMap.mp hf
    obtain ⟨_, _, _, _, g, c, _, _, hfound, rfl⟩ := ackFrame_origin h.inv he hfr
    obtain ⟨hg, hc, _⟩ := findByAddress_conn hfound
    obtain ⟨batches, hstep⟩ := ackStep h.inv hg hc (h.logged g hg c hc) op
    rw [hstep.frames] at hf
    obtain ⟨ns, hns, rfl⟩ := List.mem_map.mp hf
    exact ⟨ns, (hstep.size ns hns).1, (hstep.size ns hns).2, rfl⟩

theorem step (h : AckHistory es s) (op : Op) :
    AckHistory (es ++ [⟨s, op, (Receiver.step s op).2⟩]) (Receiver.step s op).1 := by
  have hreg := step_regStep h.inv op
  have hconn : ∀ g' ∈ (Receiver.step s op).1.groups, ∀ c' ∈ g'.conns,
      c'.Logged ∧ ackedNumbers c'.ref (es ++ [⟨s, op, (Receiver.step s op).2⟩]) ++ c'.pending =
        dataNumbers c'.ref (es ++ [⟨s, op, (Receiver.step s op).2⟩]) := by
    intro g' hg' c' hc'
    cases step_origin h.inv op hg' with
    | created _ _ heq => rw [heq] at hc'; exact absurd hc' List.not_mem_nil
    | @old g hg _ _ _ _ hconns =>
      cases hconns c' hc' with
      | @old c hc hcore =>
        obtain ⟨batches, hstep⟩ := ackStep h.inv hg hc (h.logged g hg c hc) op
        exact ⟨hcore.logged hstep.logged, h.conn_exact hg hc op hcore⟩
      | joined _ _ _ heq =>
        -- a new connection has an empty log and an identity without history
        subst heq
        obtain ⟨hf, hd⟩ := h.step_fresh op (le_refl s.nextRef)
        refine ⟨?_, ?_⟩
        · intro w hw
          exact ⟨0, by decide, List.eq_of_mem_replicate hw⟩
        · show ackedNumbers s.nextRef _ ++ [] = dataNumbers s.nextRef _
          rw [ackedNumbers, hf, hd]
          rfl
  exact ⟨hreg.inv h.inv, fun g' hg' c' hc' => (hconn g' hg' c' hc').1,
    fun g' hg' c' hc' => (hconn g' hg' c' hc').2,
    fun r hr => h.step_fresh op (hreg.nextRef_le.trans hr), fun r frame hf => h.step_frames op hf⟩

end AckHistory

theorem run_ackHistory (ops : List Op) :
    AckHistory (receiver.hist State.init ops) (receiver.run State.init ops) := by
  refine receiver.hist_invariant ?_ (fun es s op h => h.step op) ops
  exact ⟨inv_init, fun g hg => absurd hg List.not_mem_nil, fun g hg => absurd hg List.not_mem_nil,
    fun r _ => ⟨rfl, rfl⟩, fun r frame hf => absurd hf List.not_mem_nil⟩

end Srtla.Receiver

/-! ## The sender's decoder -/

namespace Srtla.Sender

open Lib

theorem srtlaAckIds_eq (m : Mem) (n : ℕ) :
    srtlaAckIds m n = (words m 4 (n / 4 - 1)).map toInt32 := by
  have hdiv : ((n : ℤ) / 4).toNat = n / 4 := by omega
  rw [srtlaAckIds, hdiv, List.range'_eq_map_range, words, List.map_map, List.map_map]
  refine List.map_congr_left fun i _ => ?_
  rw [Function.comp_apply, Function.comp_apply, Nat.mul_add, Nat.mul_one]

/-- `handle_srtla_data` on a frame of the receiver registers its numbers in order. -/
theorem handleSrtlaData_ackPacket {ns : List ℕ} (hlen : ns.length = Receiver.recvAckInt)
    (hlt : ∀ n ∈ ns, n < 2 ^ 31) {m : Mem}
    (hm : ∀ i < (Receiver.ackPacket ns).length, m i = mem (Receiver.ackPacket ns) i)
    (s : State) (c : Conn) (ts : ℤ) (ret : ℕ → ℤ) (fuel : ℕ) :
    let s' := s.putConn { c with lastRcvd := ts }
    handleSrtlaData s c m (Receiver.ackPacket ns).length ts ret fuel =
      some ({ s' with
        conns := ns.foldl (fun conns (n : ℕ) => registerSrtlaAck n conns) s'.conns }, []) := by
  obtain ⟨h44, hnumbers⟩ := Receiver.ackPacket_spec hlen hlt
  have htype : getSrtType m (Receiver.ackPacket ns).length = srtlaTypeAck := by
    unfold getSrtType
    rw [h44, if_neg (by decide), be16_congr (hm 0 (by omega)) (hm 1 (by omega)),
      Receiver.ackPacket, be16_append_left _ _ (by decide)]
    decide
  have hids : srtlaAckIds m (Receiver.ackPacket ns).length = ns.map fun n : ℕ => (n : ℤ) := by
    rw [srtlaAckIds_eq, @words_congr m (mem (Receiver.ackPacket ns)) _ _ fun i hi => hm i (by omega)]
    rw [← Receiver.ackNumbers, hnumbers]
    exact List.map_congr_left fun n hn => toInt32_of_lt (hlt n hn)
  unfold handleSrtlaData
  rw [if_neg (by omega), htype, if_neg (by decide), if_neg (by decide)]
  unfold dispatch
  rw [htype, if_neg (by decide), if_neg (by decide), if_pos rfl, hids, List.foldl_map]

end Srtla.Sender

namespace Srtla.System

open Lib Receiver

/-- **SRTLA ACKs acknowledge every data packet exactly once.** After any run and
    for every registered connection, the numbers in the ACK frames sent for it
    followed by those in its log are the sequence numbers of the data packets
    processed on it, in order of arrival; the second clause says the same of the
    connections as a packet leaves them, also when the packet goes on to tear
    their group down. A frame goes to the address of its connection. Every frame
    carries `RECV_ACK_INT` numbers, is not padded, and a sender that receives it
    registers these numbers in this order. -/
theorem acks_exact (ops : List Op) :
    let es := receiver.hist State.init ops
    let s := receiver.run State.init ops
    (∀ g ∈ s.groups, ∀ c ∈ g.conns,
      (ackFrames c.ref es).flatMap ackNumbers ++ c.pending = dataNumbers c.ref es) ∧
    (∀ buf addr ts env g c, isSrtlaReg1 (mem buf) buf.length = false →
      isSrtlaReg2 (mem buf) buf.length = false →
      findByAddress s.groups addr = some (g, some c) →
      let es' := es ++ [⟨s, .packet buf addr ts env, (step s (.packet buf addr ts env)).2⟩]
      ∀ c' ∈ (onPacket g c buf addr ts env).group.conns,
        (ackFrames c'.ref es').flatMap ackNumbers ++ c'.pending = dataNumbers c'.ref es') ∧
    (∀ e ∈ es, ∀ r addr frame ret, .padSendto (.ack r) addr frame ret ∈ e.outs →
      ∃ g ∈ e.pre.groups, ∃ c ∈ g.conns, c.ref = r ∧ c.addr = addr) ∧
    ∀ r, ∀ frame ∈ ackFrames r es,
      (ackNumbers frame).length = recvAckInt ∧ padWire frame = frame ∧
      ∀ (snd : Sender.State) (link : Sender.Conn) (m : Mem) (ts : ℤ) (ret : ℕ → ℤ) (fuel : ℕ),
        (∀ i < frame.length, m i = mem frame i) →
        let snd' := snd.putConn { link with lastRcvd := ts }
        Sender.handleSrtlaData snd link m frame.length ts ret fuel =
          some ({ snd' with
            conns := (ackNumbers frame).foldl
              (fun conns (n : ℕ) => Sender.registerSrtlaAck n conns) snd'.conns }, []) := by
  have h := run_ackHistory ops
  refine ⟨h.exact, ?_, ?_, ?_⟩
  · intro buf addr ts env g c h1 h2 hf es' c' hc'
    obtain ⟨x, hx, hcore⟩ := origin_onPacket h.inv h1 h2 hf c' hc'
    exact h.conn_exact (findByAddress_conn hf).1 hx _ hcore
  · intro e he r addr frame ret hsend
    obtain ⟨hs, houts⟩ := hist_spec ops e he
    rw [houts] at hsend
    exact ackFrame_addr (reachable_inv hs) hsend
  · intro r frame hframe
    obtain ⟨ns, hlen, hlt, rfl⟩ := h.frames r frame hframe
    obtain ⟨h44, hnumbers⟩ := ackPacket_spec hlen hlt
    rw [hnumbers]
    refine ⟨hlen, ?_, ?_⟩
    · unfold padWire
      rw [if_pos (by omega)]
    · intro snd link m ts ret fuel hm
      exact Sender.handleSrtlaData_ackPacket hlen hlt hm snd link ts ret fuel

end Srtla.System
