import Srtla.Common.Address
import Srtla.Common.Packet

/-!
# Links of the sender (`src/sender.cpp:37-327`)

`Conn` is `conn_t`: one source address, its socket, and the congestion state
of the link, a window and a log of the last `PKT_LOG_SZ` packets sent on it.
The log is a ring: `pktIdx` is the next slot to be written and every scan of
the log walks backwards from it, so it never looks at the slot `pktIdx` itself.

Counters are integers; the model does not bound `in_flight_pkts` by `INT_MAX`.
-/

namespace Srtla.Sender

open Lib

/-! ## Constants (`src/sender.cpp:37-55`, `:598`) -/

def pktLogSz : ℕ := 256
def connTimeout : ℤ := 4
def reg2Timeout : ℤ := 4
def reg3Timeout : ℤ := 4
def globalTimeout : ℕ := 10
def idleTime : ℤ := 1

def windowMin : ℤ := 1
def windowDef : ℤ := 20
def windowMax : ℤ := 60
def windowMult : ℤ := 1000
def windowDecr : ℤ := 100
def windowIncr : ℤ := 30

/-- `HOUSEKEEPING_INT`, in milliseconds. -/
def housekeepingInt : ℕ := 1000

instance : NeZero pktLogSz := ⟨by decide⟩

/-! ## Links -/

/-- `conn_t` (`src/sender.cpp:57-68`). `ref` is the object's identity (its
    heap address). `src` is the address given in the file of source addresses;
    `parse_ip` fixes family and port, so the four bytes determine it. `addr` is
    where the socket is bound, the address the receiver sees. -/
structure Conn where
  ref : ℕ
  fd : ℤ
  lastRcvd : ℤ
  lastSent : ℤ
  src : Block 4
  addr : SockaddrStorage
  removed : Bool
  inFlightPkts : ℤ
  window : ℤ
  pktIdx : Fin pktLogSz
  pktLog : Vector ℤ pktLogSz
deriving DecidableEq

/-- A link as `setup_conns` allocates it (`src/sender.cpp:472-480`). -/
def Conn.create (ref : ℕ) (src : Block 4) : Conn where
  ref := ref
  fd := -1
  lastRcvd := 0
  lastSent := 0
  src := src
  addr := default
  removed := false
  inFlightPkts := 0
  window := windowDef * windowMult
  pktIdx := 0
  pktLog := Vector.replicate pktLogSz 0

/-- `conn_timed_out` (`src/sender.cpp:165-167`). -/
def Conn.timedOut (c : Conn) (ts : ℤ) : Bool := decide (c.lastRcvd + connTimeout < ts)

/-! ## The packet log -/

/-- `get_pkt_idx` (`src/sender.cpp:247-254`). -/
def getPktIdx (idx : Fin pktLogSz) (increment : ℤ) : Fin pktLogSz :=
  let i := (idx.val : ℤ) + increment
  let i := if i < 0 then i + pktLogSz else i
  Fin.ofNat pktLogSz (i.tmod pktLogSz).toNat

/-- `reg_pkt` (`src/sender.cpp:155-163`). -/
def Conn.regPkt (c : Conn) (packet : ℤ) : Conn :=
  { c with
    pktLog := c.pktLog.set c.pktIdx packet c.pktIdx.isLt
    pktIdx := Fin.ofNat pktLogSz ((c.pktIdx.val + 1) % pktLogSz)
    inFlightPkts := c.inFlightPkts + 1 }

/-- The slots `for (i = …; i != stop; i = get_pkt_idx(i, -1))` visits. The walk
    is back at `stop` after at most `PKT_LOG_SZ` steps, which bound it here. -/
def walkBack (stop : Fin pktLogSz) : ℕ → Fin pktLogSz → List (Fin pktLogSz)
  | 0, _ => []
  | fuel + 1, i => if i = stop then [] else i :: walkBack stop fuel (getPktIdx i (-1))

/-- The slots a scan of the log visits, the newest packet first. -/
def Conn.slots (c : Conn) : List (Fin pktLogSz) :=
  walkBack c.pktIdx pktLogSz (getPktIdx c.pktIdx (-1))

/-- The slot in which a scan finds `packet`. -/
def Conn.findPkt (c : Conn) (packet : ℤ) : Option (Fin pktLogSz) :=
  c.slots.find? fun i => decide (c.pktLog.get i = packet)

/-- `pkt_log[i] = -1`. -/
def Conn.clearSlot (c : Conn) (i : Fin pktLogSz) : Conn :=
  { c with pktLog := c.pktLog.set i (-1) i.isLt }

/-- Lines 260-265 of `register_nak`: the window shrinks. -/
def Conn.nakAt (c : Conn) (i : Fin pktLogSz) : Conn :=
  { c.clearSlot i with window := max (c.window - windowDecr) (windowMin * windowMult) }

/-- `register_nak` (`src/sender.cpp:256-274`): the first link whose log has the
    packet takes the blame. -/
def registerNak (packet : ℤ) : List Conn → List Conn
  | [] => []
  | c :: cs =>
    match c.findPkt packet with
    | some i => c.nakAt i :: cs
    | none => c :: registerNak packet cs

/-- Lines 282-291 of `register_srtla_ack`: the packet is no longer in flight, and
    the window grows while more packets are in flight than it allows. -/
def Conn.ackAt (c : Conn) (i : Fin pktLogSz) : Conn :=
  let c := if c.inFlightPkts > 0 then { c with inFlightPkts := c.inFlightPkts - 1 } else c
  let c := c.clearSlot i
  if c.inFlightPkts * windowMult > c.window then { c with window := c.window + (windowIncr - 1) }
  else c

/-- Lines 297-300: a link that has heard from the receiver gains one. -/
def Conn.grow (c : Conn) : Conn :=
  if c.lastRcvd ≠ 0 then { c with window := min (c.window + 1) (windowMax * windowMult) } else c

/-- The loop of `register_srtla_ack` (`src/sender.cpp:276-302`). -/
def registerSrtlaAckLoop (ack : ℤ) : (found : Bool) → List Conn → List Conn
  | _, [] => []
  | found, c :: cs =>
    let hit := if found then none else c.findPkt ack
    let c := match hit with
      | some i => c.ackAt i
      | none => c
    c.grow :: registerSrtlaAckLoop ack (found || hit.isSome) cs

def registerSrtlaAck (ack : ℤ) (conns : List Conn) : List Conn := registerSrtlaAckLoop ack false conns

/-- The loop body of `conn_register_srt_ack`, on the link and `count`. -/
def srtAckSlot (ack : ℤ) (p : Conn × ℤ) (i : Fin pktLogSz) : Conn × ℤ :=
  if p.1.pktLog.get i < ack then (p.1.clearSlot i, p.2) else (p.1, p.2 + 1)

/-- `conn_register_srt_ack` (`src/sender.cpp:310-321`). -/
def Conn.registerSrtAck (c : Conn) (ack : ℤ) : Conn :=
  let scan := c.slots.foldl (srtAckSlot ack) (c, 0)
  { scan.1 with inFlightPkts := scan.2 }

/-- `register_srt_ack` (`src/sender.cpp:323-327`). -/
def registerSrtAck (ack : ℤ) (conns : List Conn) : List Conn :=
  conns.map fun c => c.registerSrtAck ack

/-! ## Choosing a link -/

/-- The second loop of `select_conn`: the first link with the best score. -/
def selectLoop (t : ℤ) : List Conn → (maxScore : ℤ) → (minC : Option Conn) → Option Conn
  | [], _, minC => minC
  | c :: cs, maxScore, minC =>
    if c.timedOut t then selectLoop t cs maxScore minC
    else
      let score := c.window.tdiv (c.inFlightPkts + 1)
      if score > maxScore then selectLoop t cs score (some c) else selectLoop t cs maxScore minC

/-- `select_conn` (`src/sender.cpp:169-216`); `seconds` is `none` when
    `get_seconds` fails. -/
def selectConn (conns : List Conn) (seconds : Option ℤ) : Option Conn :=
  match seconds with
  | none => none
  | some t => (selectLoop t conns (-1) none).map fun c => { c with lastSent := t }

/-! ## Identity

The congestion code rewrites links in place. It leaves their identity, socket
and addresses alone, which is all that registration looks at. -/

/-- The two links are one object with one socket. -/
structure Conn.SameLink (c c' : Conn) : Prop where
  ref : c'.ref = c.ref
  fd : c'.fd = c.fd
  src : c'.src = c.src
  addr : c'.addr = c.addr

namespace Conn.SameLink

variable {c c' c'' : Conn}

protected theorem refl (c : Conn) : c.SameLink c := ⟨rfl, rfl, rfl, rfl⟩

theorem trans (h : c.SameLink c') (h' : c'.SameLink c'') : c.SameLink c'' :=
  ⟨h'.ref.trans h.ref, h'.fd.trans h.fd, h'.src.trans h.src, h'.addr.trans h.addr⟩

end Conn.SameLink

theorem Conn.sameLink_clearSlot (c : Conn) (i : Fin pktLogSz) : c.SameLink (c.clearSlot i) :=
  ⟨rfl, rfl, rfl, rfl⟩

theorem Conn.sameLink_nakAt (c : Conn) (i : Fin pktLogSz) : c.SameLink (c.nakAt i) :=
  ⟨rfl, rfl, rfl, rfl⟩

theorem Conn.sameLink_ackAt (c : Conn) (i : Fin pktLogSz) : c.SameLink (c.ackAt i) := by
  unfold Conn.ackAt
  dsimp only
  split_ifs
  all_goals exact ⟨rfl, rfl, rfl, rfl⟩

theorem Conn.sameLink_grow (c : Conn) : c.SameLink c.grow := by
  unfold Conn.grow
  split_ifs
  all_goals exact ⟨rfl, rfl, rfl, rfl⟩

theorem sameLink_srtAckSlot (ack : ℤ) (p : Conn × ℤ) (i : Fin pktLogSz) :
    p.1.SameLink (srtAckSlot ack p i).1 := by
  unfold srtAckSlot
  split_ifs
  · exact p.1.sameLink_clearSlot i
  · exact .refl _

theorem Conn.sameLink_registerSrtAck (c : Conn) (ack : ℤ) : c.SameLink (c.registerSrtAck ack) := by
  have hscan : ∀ (l : List (Fin pktLogSz)) (p : Conn × ℤ),
      p.1.SameLink (l.foldl (srtAckSlot ack) p).1 := by
    intro l
    induction l with
    | nil => exact fun p => .refl _
    | cons i l ih => exact fun p => (sameLink_srtAckSlot ack p i).trans (ih _)
  obtain ⟨h1, h2, h3, h4⟩ := hscan c.slots (c, 0)
  exact ⟨h1, h2, h3, h4⟩

/-- Link by link, the two lists hold the same objects. -/
abbrev SameLinks (conns conns' : List Conn) : Prop := List.Forall₂ Conn.SameLink conns conns'

theorem SameLinks.refl (conns : List Conn) : SameLinks conns conns :=
  List.forall₂_same.mpr fun c _ => .refl c

theorem SameLinks.trans {l₁ l₂ l₃ : List Conn} (h : SameLinks l₁ l₂) (h' : SameLinks l₂ l₃) :
    SameLinks l₁ l₃ := by
  induction h generalizing l₃ with
  | nil => exact h'
  | cons h _ ih =>
    cases h' with
    | cons h₂ ht => exact .cons (h.trans h₂) (ih ht)

/-- A link of the rewritten list is a link of the old one. -/
theorem SameLinks.origin {conns conns' : List Conn} (h : SameLinks conns conns') {c' : Conn}
    (hc : c' ∈ conns') : ∃ c ∈ conns, c.SameLink c' := by
  induction h with
  | nil => exact absurd hc List.not_mem_nil
  | cons h _ ih =>
    rcases List.mem_cons.mp hc with rfl | hc
    · exact ⟨_, List.mem_cons_self, h⟩
    · obtain ⟨c, hm, hs⟩ := ih hc
      exact ⟨c, List.mem_cons_of_mem _ hm, hs⟩

theorem SameLinks.map_ref {conns conns' : List Conn} (h : SameLinks conns conns') :
    conns'.map Conn.ref = conns.map Conn.ref := by
  induction h with
  | nil => rfl
  | cons h _ ih => rw [List.map_cons, List.map_cons, h.ref, ih]

theorem sameLinks_registerNak (packet : ℤ) (conns : List Conn) :
    SameLinks conns (registerNak packet conns) := by
  induction conns with
  | nil => exact .nil
  | cons c cs ih =>
    unfold registerNak
    split
    · exact .cons (c.sameLink_nakAt _) (SameLinks.refl cs)
    · exact .cons (.refl c) ih

theorem sameLinks_registerSrtlaAckLoop (ack : ℤ) (found : Bool) (conns : List Conn) :
    SameLinks conns (registerSrtlaAckLoop ack found conns) := by
  induction conns generalizing found with
  | nil => exact .nil
  | cons c cs ih =>
    refine .cons (.trans ?_ (Conn.sameLink_grow _)) (ih _)
    split
    · exact c.sameLink_ackAt _
    · exact .refl c

theorem sameLinks_registerSrtAck (ack : ℤ) (conns : List Conn) :
    SameLinks conns (registerSrtAck ack conns) := by
  induction conns with
  | nil => exact .nil
  | cons c cs ih => exact .cons (c.sameLink_registerSrtAck ack) ih

end Srtla.Sender
