import Srtla.Sender.Dispatch

/-!
# What the sender passes on (`src/sender.cpp:218-240`, `:329-433`, `:599-661`)

Upstream a sender sends packets of its SRT caller and frames of its own.
Downstream it hands to the caller what a link received, unless it keeps it.

* `step_wireOrigin`: where every datagram on the network comes from.
* `step_toCaller`: what the caller receives is a datagram as a link received it,
  of none of the types that the sender keeps to itself.
-/

namespace Srtla.Sender

open Lib

/-- Where a datagram of the sender comes from. -/
inductive WireOrigin (op : Op) : Bytes → Prop
  | reg1 (id : SrtlaId) : WireOrigin op (reg1Frame id)
  | reg2 (id : SrtlaId) : WireOrigin op (reg2Frame id)
  | keepalive : WireOrigin op (putBe16 srtlaTypeKeepalive)
  | data {env : SrtDataEnv} (input : op = .srtData env) :
      WireOrigin op (window env.buf 0 env.n.toNat)

variable {s : State} {op : Op} {r : State × List Effect} {d : SockaddrStorage × Bytes}

theorem housekeepConn_origin {c : Conn} {time : ℤ} {env : HousekeepingEnv} {fds : List ℤ}
    (hd : d ∈ (housekeepConn s time env fds c).effects.flatMap Effect.wire) : WireOrigin op d.2 := by
  unfold housekeepConn at hd
  dsimp only at hd
  split_ifs at hd
  · exact absurd hd List.not_mem_nil
  · obtain ⟨_, rfl⟩ := sendReg2_wire hd
    exact .reg2 _
  · obtain ⟨_, rfl⟩ := sendReg1_wire hd
    exact .reg1 _
  · exact absurd hd List.not_mem_nil
  · obtain ⟨_, rfl⟩ := sendto_wire hd
    exact .keepalive
  · exact absurd hd List.not_mem_nil

theorem housekeepLoop_origin {time : ℤ} {env : HousekeepingEnv} (fds : List ℤ) (conns : List Conn) :
    ∀ d ∈ (housekeepLoop s time env fds conns).2.2.2.flatMap Effect.wire, WireOrigin op d.2 := by
  induction conns generalizing fds with
  | nil => exact fun d hd => absurd hd List.not_mem_nil
  | cons c cs ih =>
    intro d hd
    unfold housekeepLoop at hd
    dsimp only at hd
    rw [List.flatMap_append] at hd
    rcases List.mem_append.mp hd with hd | hd
    · exact housekeepConn_origin hd
    · exact ih _ d hd

/-- **A sender makes up no packets**: it sends the packet it was handed, or a
    frame of its own. -/
theorem step_wireOrigin (h : step s op = some r) (hd : d ∈ r.2.flatMap Effect.wire) :
    WireOrigin op d.2 := by
  cases step_cases h with
  | srtData env =>
    unfold handleSrtData at hd
    dsimp only at hd
    split at hd
    · exact absurd hd List.not_mem_nil
    · obtain ⟨_, rfl⟩ := sendto_wire hd
      exact .data rfl
  | empty => exact absurd hd List.not_mem_nil
  | ngp =>
    unfold onRegNgp at hd
    dsimp only at hd
    split_ifs at hd
    · obtain ⟨_, rfl⟩ := sendReg1_wire hd
      exact .reg1 _
    · obtain ⟨_, rfl⟩ := sendReg1_wire hd
      exact .reg1 _
    · exact absurd hd List.not_mem_nil
  | reg2 =>
    rcases (onReg2_cases s _ _ _ _).2 with ⟨heq, _⟩ | ⟨_, _, _, heff⟩
    · rw [heq] at hd
      exact absurd hd List.not_mem_nil
    · rw [heff, State.broadcastReg2, List.flatMap_assoc] at hd
      obtain ⟨x, _, hd⟩ := List.mem_flatMap.mp hd
      obtain ⟨_, rfl⟩ := sendReg2_wire hd
      exact .reg2 _
  | dispatch _ _ heq => exact absurd hd (not_wire_caller (dispatch_effects heq))
  | updateConns file => exact absurd hd List.not_mem_nil
  | housekeeping env =>
    unfold connectionHousekeeping at hd
    split at hd
    · exact absurd hd List.not_mem_nil
    · split_ifs at hd
      · exact absurd hd List.not_mem_nil
      · exact housekeepLoop_origin _ _ d hd

/-- The packets that the effects hand to the SRT caller. -/
def toCaller (es : List Effect) : List Bytes :=
  es.filterMap fun
    | .caller _ buf => some buf
    | .link .. => none

theorem mem_toCaller {es : List Effect} {b : Bytes} : b ∈ toCaller es ↔ ∃ dst, .caller dst b ∈ es := by
  unfold toCaller
  rw [List.mem_filterMap]
  constructor
  · rintro ⟨e, he, heq⟩
    cases e with
    | caller dst buf => exact ⟨dst, Option.some.inj heq ▸ he⟩
    | link => cases heq
  · rintro ⟨dst, he⟩
    exact ⟨_, he, rfl⟩

theorem housekeepConn_not_caller {c : Conn} {time : ℤ} {env : HousekeepingEnv} {fds : List ℤ} :
    ∀ dst b, Effect.caller dst b ∉ (housekeepConn s time env fds c).effects := by
  unfold housekeepConn State.sendReg1 State.sendReg2 State.sendKeepalive
  dsimp only
  intro dst b hm
  split_ifs at hm
  all_goals first
    | exact sendto_not_caller _ _ _ _ _ _ hm
    | cases hm

theorem housekeepLoop_not_caller {time : ℤ} {env : HousekeepingEnv} (fds : List ℤ)
    (conns : List Conn) :
    ∀ dst b, Effect.caller dst b ∉ (housekeepLoop s time env fds conns).2.2.2 := by
  induction conns generalizing fds with
  | nil => exact fun _ _ => List.not_mem_nil
  | cons c cs ih =>
    intro dst b hm
    unfold housekeepLoop at hm
    rcases List.mem_append.mp hm with hm | hm
    · exact housekeepConn_not_caller dst b hm
    · exact ih _ dst b hm

/-- What a link hands to the caller is the datagram it received, and that is none
    of the frames the sender keeps to itself. -/
theorem dispatch_toCaller {buf : Mem} {n : ℤ} {fuel : ℕ} (h : dispatch s buf n fuel = some r)
    {b : Bytes} (hb : b ∈ toCaller r.2) :
    b = window buf 0 n.toNat ∧
      getSrtType buf n ∉ [srtlaTypeAck, srtlaTypeKeepalive, srtlaTypeReg3] := by
  obtain ⟨dst, hm⟩ := mem_toCaller.mp hb
  refine ⟨?_, fun hsilent => ?_⟩
  · unfold dispatch at h
    dsimp only at h
    split_ifs at h
    · rw [← Option.some.inj h] at hm
      cases List.mem_singleton.mp hm
      rfl
    · obtain ⟨ids, _, rfl⟩ := Option.map_eq_some_iff.mp h
      cases List.mem_singleton.mp hm
      rfl
    all_goals
      rw [← Option.some.inj h] at hm
      first
        | exact absurd hm List.not_mem_nil
        | (cases List.mem_singleton.mp hm
           rfl)
  · rw [dispatch_silent hsilent h] at hm
    cases hm

/-- **A sender hands back what it received**: a packet for the caller is a
    datagram of a link, with none of the types that the sender keeps to itself. -/
theorem step_toCaller (h : step s op = some r) {b : Bytes} (hb : b ∈ toCaller r.2) :
    ∃ ref buf n ts ret fuel, op = .srtlaData ref buf n ts ret fuel ∧ b = window buf 0 n.toNat ∧
      getSrtType buf n ∉
        [srtlaTypeRegNgp, srtlaTypeReg2, srtlaTypeAck, srtlaTypeKeepalive, srtlaTypeReg3] := by
  obtain ⟨dst, hm⟩ := mem_toCaller.mp hb
  unfold step at h
  split_ifs at h
  cases op with
  | srtData env =>
    rw [← Option.some.inj h] at hm
    unfold handleSrtData at hm
    dsimp only at hm
    split at hm
    · cases hm
    · exact absurd hm (sendto_not_caller _ _ _ _ _ _)
  | updateConns file =>
    rw [← Option.some.inj h] at hm
    cases hm
  | housekeeping env =>
    rw [← Option.some.inj h] at hm
    unfold connectionHousekeeping at hm
    split at hm
    · cases hm
    · split_ifs at hm
      · cases hm
      · exact absurd hm (housekeepLoop_not_caller _ _ _ _)
  | srtlaData ref buf n ts ret fuel =>
    dsimp only at h
    split at h
    · cases h
    · rename_i c _
      unfold handleSrtlaData at h
      split_ifs at h with _ _ hngp hreg2
      · rw [← Option.some.inj h] at hm
        cases hm
      · rw [← Option.some.inj h] at hm
        exact absurd hm (onRegNgp_not_caller _ _ _ _ _ _)
      · rw [← Option.some.inj h] at hm
        exact absurd hm (onReg2_not_caller _ _ _ _ _ _ _)
      · obtain ⟨hbuf, htype⟩ := dispatch_toCaller h hb
        refine ⟨ref, buf, n, ts, ret, fuel, rfl, hbuf, ?_⟩
        rw [List.mem_cons, List.mem_cons, not_or, not_or]
        exact ⟨hngp, hreg2, htype⟩

end Srtla.Sender
