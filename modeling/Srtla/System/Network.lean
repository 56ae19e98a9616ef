import Srtla.Lib.Lts
import Srtla.Receiver.Lifetime
import Srtla.Receiver.Sent
import Srtla.Sender.Registration

/-!
# Senders, a receiver and the network between them

Any number of senders (`ι` is the type of their names) and one receiver. The
network remembers every datagram that was sent. It may hand a datagram on at any
time after that, to the party it was sent to, any number of times or never; this
covers loss, duplication, delay and reordering. It makes nothing up: a datagram
arrives with the bytes that were sent and with its true source address.

The SRT caller behind a sender and the SRT server behind the receiver are not
modelled. They speak SRT, so what they send has not the type of an SRTLA
registration.

`created` is a log for the proofs: the groups the receiver has registered, each
with the datagram it was registered for.
-/

namespace Srtla.System

open Lib

/-- A group that was registered: the source and the bytes of the REG1, and the id. -/
structure Creation where
  addr : SockaddrStorage
  buf : Bytes
  id : SrtlaId

/-- The state of the whole system. A datagram to the receiver is kept with its
    source address, one to a sender with its destination. -/
structure Net (ι : Type*) where
  senders : ι → Sender.State
  receiver : Receiver.State
  toReceiver : List (SockaddrStorage × Bytes)
  toSenders : List (SockaddrStorage × Bytes)
  created : List Creation

/-- The groups a step of the receiver registers. -/
def creations (s s' : Receiver.State) : Receiver.Op → List Creation
  | .packet buf addr _ _ =>
    (s'.groups.filter fun g => decide (s.nextRef ≤ g.ref)).map fun g => ⟨addr, buf, g.id⟩
  | _ => []

variable {ι : Type*}

/-- A step of the receiver. -/
def Net.afterReceiver (N : Net ι) (op : Receiver.Op) : Net ι :=
  let r := Receiver.step N.receiver op
  { N with
    receiver := r.1
    toSenders := N.toSenders ++ r.2.flatMap Receiver.Effect.wire
    created := N.created ++ creations N.receiver r.1 op }

/-- A step of sender `i` with the result `r`. -/
def Net.afterSender [DecidableEq ι] (N : Net ι) (i : ι) (r : Sender.State × List Sender.Effect) :
    Net ι :=
  { N with
    senders := Function.update N.senders i r.1
    toReceiver := N.toReceiver ++ r.2.flatMap Sender.Effect.wire }

/-- What can happen: a datagram arrives at the receiver, the receiver does
    something else, a datagram arrives at a link of a sender (whose buffer `m` is
    then what `recvfrom` leaves), or a sender does something else. -/
inductive Act (ι : Type*)
  | receive (d : SockaddrStorage × Bytes) (ts : ℤ) (env : Receiver.PacketEnv)
  | receiver (op : Receiver.Op)
  | deliver (i : ι) (ref : ℕ) (d : SockaddrStorage × Bytes) (m : Mem) (ts : ℤ) (ret : ℕ → ℤ)
      (fuel : ℕ)
  | sender (i : ι) (op : Sender.Op)

/-- A step of the receiver that is no datagram from the SRTLA socket; the SRT
    server sends no registrations. -/
def Internal : Receiver.Op → Prop
  | .packet .. => False
  | .srtData _ env => ∀ d, env.recv = some d → NotRegistration (mem d) d.length
  | _ => True

/-- The number of bytes `recvfrom` and `recvmmsg` return for a datagram. -/
def received (buf : Bytes) : ℕ := min buf.length mtu

/-- When something can happen. A datagram for a sender arrives at the open link
    with its address, and fills the first bytes of the buffer. -/
def Act.Enabled (links : ι → Set SockaddrStorage) (N : Net ι) : Act ι → Prop
  | .receive d _ _ => d ∈ N.toReceiver ∧ 0 < d.2.length
  | .receiver op => Internal op
  | .deliver i ref d m _ _ _ =>
    d ∈ N.toSenders ∧
      (∃ c ∈ (N.senders i).conns, c.ref = ref ∧ 0 ≤ c.fd ∧ addressesEqual c.addr d.1 = true) ∧
      ∀ k < received d.2, m k = mem d.2 k
  | .sender i op => op.Local (links i)

/-- What happens; `none` when a handler of a sender does not return. -/
def Net.next [DecidableEq ι] (N : Net ι) : Act ι → Option (Net ι)
  | .receive d ts env => some (N.afterReceiver (.packet (d.2.take mtu) d.1 ts env))
  | .receiver op => some (N.afterReceiver op)
  | .deliver i ref d m ts ret fuel =>
    (Sender.step (N.senders i) (.srtlaData ref m (received d.2) ts ret fuel)).map (N.afterSender i)
  | .sender i op => (Sender.step (N.senders i) op).map (N.afterSender i)

/-- The senders of a system: how each was started, and the addresses of its links. -/
structure Deployment (ι : Type*) where
  cfg : ι → Sender.Config
  links : ι → Set SockaddrStorage
  senders : ι → Sender.State
  started : ∀ i, Sender.start (cfg i) = some (senders i)
  bound : ∀ i ref, ((cfg i).opens ref).addr ∈ links i

/-- The system at start-up. -/
def Deployment.start (D : Deployment ι) : Net ι where
  senders := D.senders
  receiver := Receiver.State.init
  toReceiver := []
  toSenders := []
  created := []

/-- The system. -/
def network [DecidableEq ι] (D : Deployment ι) : Lts (Net ι) (Act ι) where
  init := D.start
  step N a N' := a.Enabled D.links N ∧ N.next a = some N'

/-! ## Steps by party -/

variable {N N' : Net ι} {links : ι → Set SockaddrStorage}

/-- The inputs of a sender that a network allows. -/
def SenderInput (links : ι → Set SockaddrStorage) (N : Net ι) (i : ι) (op : Sender.Op) : Prop :=
  op.Local (links i) ∨
    ∃ ref d m ts ret fuel, op = .srtlaData ref m (received d.2) ts ret fuel ∧
      (Act.deliver i ref d m ts ret fuel).Enabled links N

/-- The inputs of the receiver that a network allows. -/
def ReceiverInput (N : Net ι) (op : Receiver.Op) : Prop :=
  Internal op ∨ ∃ d ∈ N.toReceiver, ∃ ts env, op = .packet (d.2.take mtu) d.1 ts env

/-- Every step is one of the receiver or one of a sender. -/
theorem next_cases [DecidableEq ι] {a : Act ι} (he : a.Enabled links N) (h : N.next a = some N') :
    (∃ op, ReceiverInput N op ∧ N' = N.afterReceiver op) ∨
      ∃ i op r, SenderInput links N i op ∧ Sender.step (N.senders i) op = some r ∧
        N' = N.afterSender i r := by
  cases a with
  | receive d ts env =>
    exact Or.inl ⟨_, Or.inr ⟨d, he.1, ts, env, rfl⟩, (Option.some.inj h).symm⟩
  | receiver op => exact Or.inl ⟨op, Or.inl he, (Option.some.inj h).symm⟩
  | deliver i ref d m ts ret fuel =>
    obtain ⟨r, hr, rfl⟩ := Option.map_eq_some_iff.mp h
    exact Or.inr ⟨i, _, r, Or.inr ⟨ref, d, m, ts, ret, fuel, rfl, he⟩, hr, rfl⟩
  | sender i op =>
    obtain ⟨r, hr, rfl⟩ := Option.map_eq_some_iff.mp h
    exact Or.inr ⟨i, op, r, Or.inl he, hr, rfl⟩

theorem SenderInput.housekeeping {i : ι} {op : Sender.Op} (h : SenderInput links N i op) :
    ∀ env, op = .housekeeping env → ∀ ref, (env.opens ref).addr ∈ links i := by
  rintro env rfl
  rcases h with h | ⟨_, _, _, _, _, _, heq, _⟩
  · exact h
  · cases heq

theorem SenderInput.srtData {i : ι} {op : Sender.Op} (h : SenderInput links N i op) :
    ∀ env, op = .srtData env → NotRegistration env.buf env.n := by
  rintro env rfl
  rcases h with h | ⟨_, _, _, _, _, _, heq, _⟩
  · exact h
  · cases heq

end Srtla.System
