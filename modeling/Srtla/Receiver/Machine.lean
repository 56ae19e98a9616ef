import Srtla.Lib.Machine
import Srtla.Receiver.Cleanup
import Srtla.Receiver.Registration

/-!
# The receiver as a machine

The inputs of `receiver` are the calls that change its state: one datagram for
`process_single_packet`, a readable SRT socket for `handle_srt_data`, and the
calls the main loop makes on its own. Every environment is part of the input, so
a run ranges over all outcomes of the system calls.
-/

namespace Srtla.Receiver

open Lib

/-- What `process_packets` counts around `process_single_packet`: a batch, and a
    datagram of `len` bytes (`src/protocol/srtla_handler.cpp:92-99`). -/
inductive LoopCount
  | batch
  | datagram (len : ℕ)

def LoopCount.incs : LoopCount → Incs
  | .batch => [(.recvBatches, 1)]
  | .datagram len => [(.packetsReceived, 1), (.bytesReceived, len)]

/-- The inputs of the receiver. -/
inductive Op
  /-- `process_single_packet`. -/
  | packet (buf : Bytes) (addr : SockaddrStorage) (ts : ℤ) (env : PacketEnv)
  /-- `handle_srt_data` for a registered group. -/
  | srtData (group : ℕ) (env : SrtEnv)
  /-- `evict_oldest_pending_group`. -/
  | evict
  /-- `cleanup_inactive`. -/
  | cleanup (t : ℤ) (ret : ℕ → ℤ)
  /-- `AuthRateLimiter::cleanup`. -/
  | limiterCleanup (t : ℤ)
  /-- `evaluate_group` and `adjust_weights` on every group; `ms` is the clock
      the evaluation of a group reads. -/
  | quality (t : ℤ) (ms : ℕ → Option UInt64)
  /-- Counters that the loop around the handlers updates. -/
  | count (what : LoopCount)

/-- The body of the loop over the groups at the end of a main loop iteration
    (`src/receiver_main.cpp:227-230`). -/
def State.assess (s : State) (t : ℤ) (ms : ℕ → Option UInt64) : State :=
  { s with groups := s.groups.map fun g => adjustWeights (evaluateGroup g t (ms g.ref)) t }

/-- One input. -/
def step (s : State) : Op → State × List Effect
  | .packet buf addr ts env => processSinglePacket s buf addr ts env
  | .srtData ref env =>
    match Keyed.get ConnectionGroup.ref ref s.groups with
    | none => (s, [])
    | some g => handleSrtData s g env
  | .evict => (s.evictOldestPendingGroup.2, [])
  | .cleanup t ret => cleanupInactive s t ret
  | .limiterCleanup t => ({ s with limiter := s.limiter.cleanup t }, [])
  | .quality t ms => (s.assess t ms, [])
  | .count what => (s.inc what.incs, [])

theorem step_srtData {s : State} {ref : ℕ} {g : ConnectionGroup} {env : SrtEnv}
    (h : Keyed.get ConnectionGroup.ref ref s.groups = some g) :
    step s (.srtData ref env) = handleSrtData s g env := by
  unfold step
  dsimp only
  rw [h]

/-- The receiver. -/
def receiver : Machine State Op Effect where
  init := State.init
  step := step

/-- A datagram for `process_single_packet`, with its arrival time and the
    outcomes of the system calls made for it. -/
structure Arrival where
  buf : Bytes
  addr : SockaddrStorage
  ts : ℤ
  env : PacketEnv

/-- The datagram as an input. -/
def Arrival.op (d : Arrival) : Op := .packet d.buf d.addr d.ts d.env

/-- The states of the receiver. -/
abbrev Reachable (s : State) : Prop := receiver.Reachable s

/-- The steps of a run of the receiver are `step`s from reachable states. -/
theorem hist_spec (ops : List Op) :
    ∀ e ∈ receiver.hist State.init ops, Reachable e.pre ∧ e.outs = (step e.pre e.input).2 :=
  receiver.hist_spec ops

end Srtla.Receiver
