import Srtla.Receiver.Handshake

/-!
# Who is admitted, and what a stranger gets

A REG2 for a registered group is answered with a REG3 as long as there is room,
from a new address and from a registered one alike. A datagram from an address
without a connection gets an answer only if it is a registration.

* `joins_any_order`: REG2 datagrams for one group, in any order and with any
  repetitions, are all answered with a REG3, and the group ends up with the
  addresses it had and theirs.
* `stranger_not_served`: for a stranger that does not register nothing is sent
  and nothing changes; one that does gets one datagram, no longer than its own.
-/

namespace Srtla.Receiver

open Lib

variable {s : State} {G : ConnectionGroup} {d : Arrival} {L : List Arrival}

/-! ## Joining links -/

/-- If the ids are distinct, the search for the id of a group finds that group. -/
theorem findGroupById_of_mem (hids : (s.groups.map ConnectionGroup.id).Nodup)
    (hG : G ∈ s.groups) : findGroupById s.groups G.id = some G := by
  cases hf : findGroupById s.groups G.id with
  | none =>
    have hno := List.find?_eq_none.mp hf G hG
    rw [constantTimeCompare_eq_zero_iff.mpr rfl] at hno
    exact absurd rfl hno
  | some x =>
    obtain ⟨hx, hid⟩ := findGroupById_eq_some hf
    rw [List.inj_on_of_nodup_map hids hx hG hid]

/-- The datagrams of `L` are REG2s for the group `G`, which has room for all their
    addresses, and no other group owns one of these. -/
structure Joinable (s : State) (G : ConnectionGroup) (L : List Arrival) : Prop where
  inv : Inv s
  found : findGroupById s.groups G.id = some G
  reg2 : ∀ d ∈ L, isSrtlaReg2 (mem d.buf) d.buf.length = true ∧ readBlock (mem d.buf) 2 256 = G.id
  owner : ∀ d ∈ L, ∀ x ∈ s.groups, x.Owns d.addr → x = G
  room : ((G.conns.map fun c => c.addr.endpoint) ++ L.map fun d => d.addr.endpoint).toFinset.card ≤
    maxConnsPerGroup
  sent : ∀ d ∈ L, padRet 2 d.env.sendtoRet = 2

/-- Room for all is room for the next one, if it is new. -/
theorem Joinable.room_next (h : Joinable s G (d :: L))
    (hfresh : ∀ c ∈ G.conns, addressesEqual c.addr d.addr = false) :
    G.conns.length < maxConnsPerGroup := by
  have hnew : d.addr.endpoint ∉ G.conns.map fun c => c.addr.endpoint := by
    intro hmem
    obtain ⟨c, hc, he⟩ := List.mem_map.mp hmem
    exact Bool.eq_false_iff.mp (hfresh c hc) (addressesEqual_iff.mpr he)
  have hsub : insert d.addr.endpoint (G.conns.map fun c => c.addr.endpoint).toFinset ⊆
      ((G.conns.map fun c => c.addr.endpoint) ++
        (d :: L).map fun d => d.addr.endpoint).toFinset := by
    intro e he
    rw [Finset.mem_insert, List.mem_toFinset] at he
    rw [List.mem_toFinset, List.map_cons, List.mem_append, List.mem_cons]
    rcases he with rfl | he
    · exact Or.inr (Or.inl rfl)
    · exact Or.inl he
  have hcard := (Finset.card_le_card hsub).trans h.room
  rw [Finset.card_insert_of_notMem (by rwa [List.mem_toFinset]),
    List.toFinset_card_of_nodup (h.inv.wf G (findGroupById_eq_some h.found).1).endpoints,
    List.length_map] at hcard
  omega

/-- One datagram: a REG3, and the others can still join. -/
theorem Joinable.step (h : Joinable s G (d :: L)) :
    (Receiver.step s d.op).2 = [regReply srtlaTypeReg3 d.addr d.env] ∧
      ∃ G', (Receiver.step s d.op).1.groups = Keyed.put ConnectionGroup.ref G' s.groups ∧
        G'.ref = G.ref ∧ G'.id = G.id ∧
        (∀ e, e ∈ (G'.conns.map fun c => c.addr.endpoint) ↔
          e ∈ (G.conns.map fun c => c.addr.endpoint) ∨ e = d.addr.endpoint) ∧
        Joinable (Receiver.step s d.op).1 G' L := by
  obtain ⟨h2, hid⟩ := h.reg2 d List.mem_cons_self
  obtain ⟨hG, _⟩ := findGroupById_eq_some h.found
  have hans := @step_reg2_answered s d.addr d.ts d.env h.inv d.buf G h2 (by rw [hid]; exact h.found)
    (h.owner d List.mem_cons_self) h.room_next (h.sent d List.mem_cons_self)
  refine ⟨hans.1, ?_⟩
  -- both outcomes write the group, with the address of the datagram among its addresses
  obtain ⟨G', hgroups, href, hid', hends⟩ : ∃ G', (Receiver.step s d.op).1.groups =
      Keyed.put ConnectionGroup.ref G' s.groups ∧ G'.ref = G.ref ∧ G'.id = G.id ∧
      ∀ e, e ∈ (G'.conns.map fun c => c.addr.endpoint) ↔
        e ∈ (G.conns.map fun c => c.addr.endpoint) ∨ e = d.addr.endpoint := by
    rcases hans.2 with ⟨_, _, hgroups⟩ | ⟨⟨c, hc, ha⟩, hgroups⟩
    · refine ⟨_, hgroups, rfl, rfl, fun e => ?_⟩
      simp [ConnectionGroup.addConnection, Connection.create]
    · refine ⟨_, hgroups, rfl, rfl, fun e => ⟨Or.inl, ?_⟩⟩
      rintro (he | rfl)
      · exact he
      · exact List.mem_map.mpr ⟨c, hc, addressesEqual_iff.mp ha⟩
  refine ⟨G', hgroups, href, hid', hends, ?_⟩
  have hmem : G' ∈ (Receiver.step s d.op).1.groups := by
    rw [hgroups]
    exact Keyed.mem_put.mpr (Or.inl ⟨rfl, by rw [href]; exact List.mem_map_of_mem hG⟩)
  have hstep := step_regStep h.inv d.op
  refine ⟨hstep.inv h.inv, ?_, ?_, ?_, ?_, fun d' hd' => h.sent d' (List.mem_cons_of_mem _ hd')⟩
  · rw [hid']
    exact hstep.find_id h.inv h.found hmem href
  · intro d' hd'
    rw [hid']
    exact h.reg2 d' (List.mem_cons_of_mem _ hd')
  · intro d' hd' x hx hown
    rw [hgroups] at hx
    rcases Keyed.mem_put.mp hx with ⟨rfl, _⟩ | ⟨hx, hne⟩
    · rfl
    · rw [h.owner d' (List.mem_cons_of_mem _ hd') x hx hown] at hne
      exact absurd href.symm hne
  · refine (Finset.card_le_card fun e he => ?_).trans h.room
    rw [List.mem_toFinset, List.mem_append, hends] at he
    rw [List.mem_toFinset, List.mem_append, List.map_cons, List.mem_cons]
    tauto

/-- A list of datagrams: a REG3 for each, no group created, all addresses joined. -/
theorem Joinable.run (h : Joinable s G L) :
    (receiver.hist s (L.map Arrival.op)).map Machine.Event.outs =
        (L.map fun d => [regReply srtlaTypeReg3 d.addr d.env]) ∧
      (receiver.run s (L.map Arrival.op)).groups.map ConnectionGroup.ref =
        s.groups.map ConnectionGroup.ref ∧
      Inv (receiver.run s (L.map Arrival.op)) ∧
      ∃ G' ∈ (receiver.run s (L.map Arrival.op)).groups, G'.ref = G.ref ∧ G'.id = G.id ∧
        ∀ e, e ∈ (G'.conns.map fun c => c.addr.endpoint) ↔
          e ∈ (G.conns.map fun c => c.addr.endpoint) ∨ e ∈ L.map fun d => d.addr.endpoint := by
  induction L generalizing s G with
  | nil =>
    exact ⟨rfl, rfl, h.inv, G, (findGroupById_eq_some h.found).1, rfl, rfl, fun e => by simp⟩
  | cons d L ih =>
    obtain ⟨heff, G', hgroups, href, hid, hends, hnext⟩ := h.step
    obtain ⟨hhist, hrefs, hinv, G'', hG'', href', hid', hends'⟩ := ih hnext
    refine ⟨?_, ?_, hinv, G'', hG'', href'.trans href, hid'.trans hid, fun e => ?_⟩
    · rw [List.map_cons, Machine.hist_cons, List.map_cons, List.map_cons]
      exact congrArg₂ List.cons heff hhist
    · rw [List.map_cons, Machine.run_cons]
      refine hrefs.trans ?_
      rw [hgroups, Keyed.map_key_put]
    · rw [hends', hends, List.map_cons, List.mem_cons]
      tauto

/-- **Joining links commute and repeat harmlessly.** REG2 datagrams `L` for a group
    that has room for all their addresses, in any order and with any repetitions
    (`L'`): each is answered with one REG3, no group is created or lost, and the
    group's addresses are the old ones and those of `L`, each once. -/
theorem joins_any_order (s : State) (h : Reachable s)
    (hids : (s.groups.map ConnectionGroup.id).Nodup) (G : ConnectionGroup) (hG : G ∈ s.groups)
    (L : List Arrival)
    (hreg2 : ∀ d ∈ L, isSrtlaReg2 (mem d.buf) d.buf.length = true ∧
      readBlock (mem d.buf) 2 256 = G.id)
    (howner : ∀ d ∈ L, ∀ x ∈ s.groups, x.Owns d.addr → x = G)
    (hroom : ((G.conns.map fun c => c.addr.endpoint) ++
      L.map fun d => d.addr.endpoint).toFinset.card ≤ maxConnsPerGroup)
    (hsent : ∀ d ∈ L, padRet 2 d.env.sendtoRet = 2) (L' : List Arrival) (hL' : ∀ d, d ∈ L' ↔ d ∈ L) :
    (receiver.hist s (L'.map Arrival.op)).map Machine.Event.outs =
        (L'.map fun d => [regReply srtlaTypeReg3 d.addr d.env]) ∧
      (receiver.run s (L'.map Arrival.op)).groups.map ConnectionGroup.ref =
        s.groups.map ConnectionGroup.ref ∧
      ∃ G' ∈ (receiver.run s (L'.map Arrival.op)).groups, G'.ref = G.ref ∧
        (G'.conns.Pairwise fun c c' => addressesEqual c.addr c'.addr = false) ∧
        ∀ a, (∃ c ∈ G'.conns, addressesEqual c.addr a = true) ↔
          (∃ c ∈ G.conns, addressesEqual c.addr a = true) ∨
            ∃ d ∈ L, addressesEqual d.addr a = true := by
  have hjoin : Joinable s G L' := by
    refine ⟨reachable_inv h, findGroupById_of_mem hids hG, fun d hd => hreg2 d ((hL' d).mp hd),
      fun d hd => howner d ((hL' d).mp hd), ?_, fun d hd => hsent d ((hL' d).mp hd)⟩
    refine (Finset.card_le_card fun e he => ?_).trans hroom
    rw [List.mem_toFinset, List.mem_append, List.mem_map, List.mem_map] at he ⊢
    rcases he with he | ⟨d, hd, he⟩
    · exact Or.inl he
    · exact Or.inr ⟨d, (hL' d).mp hd, he⟩
  obtain ⟨hhist, hrefs, hinv, G', hG', href, _, hends⟩ := hjoin.run
  refine ⟨hhist, hrefs, G', hG', href, (hinv.wf G' hG').addrs_apart, fun a => ?_⟩
  have hend := hends a.endpoint
  simp only [List.mem_map, ← addressesEqual_iff, hL'] at hend
  exact hend

/-- A REG2 for the sample group. -/
def sampleReg2 (port : UInt16) : Arrival :=
  ⟨reg2Frame (.ofHalves (SrtlaId.firstHalf default) default), sampleAddr port, 1,
    { (default : PacketEnv) with sendtoRet := 32 }⟩

theorem joins_any_order_three :
    let s := receiver.run State.init (handshake default default (sampleAddr 1) (sampleAddr 2) 0 0)
    ∃ G' ∈ (receiver.run s ([sampleReg2 3, sampleReg2 2, sampleReg2 3].map Arrival.op)).groups,
      ∀ a, (∃ c ∈ G'.conns, addressesEqual c.addr a = true) ↔
        addressesEqual (sampleAddr 2) a = true ∨ addressesEqual (sampleAddr 3) a = true := by
  obtain ⟨hgroups, _⟩ := run_handshake default default (sampleAddr 1) (sampleAddr 2) 0 0
  have hreach : Reachable (receiver.run State.init
    (handshake default default (sampleAddr 1) (sampleAddr 2) 0 0)) := ⟨_, rfl⟩
  generalize receiver.run State.init
    (handshake default default (sampleAddr 1) (sampleAddr 2) 0 0) = s at *
  have hread : readBlock (mem (reg2Frame (.ofHalves (SrtlaId.firstHalf default) default))) 2 256 =
      SrtlaId.ofHalves (SrtlaId.firstHalf default) default := readBlock_regFrame _ _
  have horder : ∀ x y d : Arrival, d ∈ [y, x, y] ↔ d ∈ [x, y] := by
    intro x y d
    simp only [List.mem_cons, List.not_mem_nil, or_false]
    exact ⟨fun h => h.elim Or.inr id, Or.inr⟩
  obtain ⟨_, _, G', hG', _, _, hends⟩ := joins_any_order s hreach
    (by rw [hgroups]; exact List.nodup_singleton _)
    (handshakeGroup default default (sampleAddr 1) (sampleAddr 2) 0 0)
    (by rw [hgroups]; exact List.mem_singleton_self _) [sampleReg2 2, sampleReg2 3]
    (by
      intro d hd
      simp only [List.mem_cons, List.not_mem_nil, or_false] at hd
      rcases hd with rfl | rfl <;> exact ⟨isSrtlaReg2_reg2Frame _, hread⟩)
    (by rw [hgroups]; exact fun d _ x hx _ => List.mem_singleton.mp hx)
    (by decide)
    (by
      intro d hd
      simp only [List.mem_cons, List.not_mem_nil, or_false] at hd
      rcases hd with rfl | rfl <;> rfl)
    [sampleReg2 3, sampleReg2 2, sampleReg2 3] (horder _ _)
  refine ⟨G', hG', fun a => (hends a).trans ?_⟩
  have hconns : (handshakeGroup default default (sampleAddr 1) (sampleAddr 2) 0 0).conns =
      [.create 1 (sampleAddr 2) 0] := rfl
  rw [hconns]
  simp only [List.mem_cons, List.not_mem_nil, or_false, exists_eq_or_imp, exists_eq_left]
  exact or_self_left ..

/-! ## Strangers -/

theorem isSrtlaReg_iff {buf : Bytes} :
    isSrtlaReg1 (mem buf) buf.length = true ∨ isSrtlaReg2 (mem buf) buf.length = true ↔
      buf.length = 258 ∧ (be16 (mem buf) 0 = srtlaTypeReg1 ∨ be16 (mem buf) 0 = srtlaTypeReg2) := by
  unfold isSrtlaReg1 isSrtlaReg2 getSrtType
  by_cases hlen : buf.length = 258
  · simp [hlen, srtlaTypeReg1Len, srtlaTypeReg2Len, srtlaIdLen]
  · have hne : (buf.length : ℤ) ≠ 258 := by omega
    simp [hlen, hne, srtlaTypeReg1Len, srtlaTypeReg2Len, srtlaIdLen]

/-- Every reply to a registration is padded to 32 bytes or a REG2, and so no longer
    than the request. -/
theorem length_padWire_regReply (type : ℕ) : (padWire (putBe16 type)).length = 32 := by
  rfl

theorem registration_answered (h : Inv s) {buf : Bytes} {addr : SockaddrStorage} {ts : ℤ}
    {env : PacketEnv}
    (hreg : isSrtlaReg1 (mem buf) buf.length = true ∨ isSrtlaReg2 (mem buf) buf.length = true) :
    ∃ reply, (step s (.packet buf addr ts env)).2 =
        [.padSendto .regReply addr reply env.sendtoRet] ∧ (padWire reply).length ≤ 258 := by
  have hshort : ∀ type, ∃ reply, [regReply type addr env] =
      [.padSendto .regReply addr reply env.sendtoRet] ∧ (padWire reply).length ≤ 258 := fun type =>
    ⟨putBe16 type, rfl, by rw [length_padWire_regReply]; decide⟩
  have hlong : ∀ id, (padWire (reg2Frame id)).length ≤ 258 := by
    intro id
    rw [padWire, if_pos (by rw [length_reg2Frame]; decide), length_reg2Frame]
    decide
  rcases hreg with h1 | h2
  · rw [step, processSinglePacket_reg1 h1]
    obtain ⟨_, hcase⟩ := registerGroup_cases s addr (mem buf) ts env
    cases ho : regGroupOutcome s addr ts env with
    | throttled | tableFull | dupAddr =>
      rw [ho] at hcase
      rw [hcase.2.2]
      exact hshort _
    | sendError =>
      rw [ho] at hcase
      exact ⟨_, hcase.2.2, hlong _⟩
    | registered =>
      rw [ho] at hcase
      exact ⟨_, hcase.2.2.2, hlong _⟩
  · rw [step, processSinglePacket_reg2 h2]
    rcases registerConnection_cases s h.refs addr (mem buf) ts env with
      ⟨_, _, type, _, heff⟩ | ⟨g, _, _, _, _, heff, _⟩
    · rw [heff]
      exact hshort type
    · rw [heff]
      exact hshort _

/-- **Strangers get no free service.** A datagram from an address without a
    connection is dropped without a trace, unless it is a REG1 or a REG2; then one
    datagram goes back, which is no longer than the request. -/
theorem stranger_not_served (s : State) (h : Reachable s) (buf : Bytes) (addr : SockaddrStorage)
    (ts : ℤ) (env : PacketEnv)
    (hstranger : ∀ g ∈ s.groups, ∀ c ∈ g.conns, addressesEqual c.addr addr = false) :
    let registers := buf.length = 258 ∧
      (be16 (mem buf) 0 = srtlaTypeReg1 ∨ be16 (mem buf) 0 = srtlaTypeReg2)
    (¬ registers → step s (.packet buf addr ts env) = (s, [])) ∧
    (registers → ∃ reply, (step s (.packet buf addr ts env)).2 =
        [.padSendto .regReply addr reply env.sendtoRet] ∧
      (padWire reply).length ≤ buf.length) := by
  dsimp only
  rw [← isSrtlaReg_iff]
  constructor
  · intro hno
    push Not at hno
    refine processSinglePacket_stranger (Bool.eq_false_iff.mpr hno.1) (Bool.eq_false_iff.mpr hno.2) ?_
    intro g c hf
    obtain ⟨hg, hc, ha⟩ := findByAddress_conn hf
    rw [hstranger g hg c hc] at ha
    exact absurd ha (by decide)
  · intro hreg
    rw [(isSrtlaReg_iff.mp hreg).1]
    exact registration_answered (reachable_inv h) hreg

/-- The address of a REG1 is its group's last address, but that of no connection: a
    keepalive from it is dropped, and one more REG1 is answered. -/
theorem stranger_not_served_pending :
    let s := receiver.run State.init twoGroupOps
    let again : Op := .packet (reg1Frame default) (sampleAddr 3) 0 { (default : PacketEnv) with sendtoRet := 32 }
    pendingGroup ∈ s.groups ∧ pendingGroup.lastAddr = sampleAddr 3 ∧
      step s (.packet [0x90, 0] (sampleAddr 3) 0 default) = (s, []) ∧
      ∃ reply, (step s again).2 = [.padSendto .regReply (sampleAddr 3) reply 32] ∧
        (padWire reply).length ≤ 258 := by
  intro s again
  have hgroups : s.groups = [handshakeGroup default default (sampleAddr 1) (sampleAddr 2) 0 0, pendingGroup] :=
    run_twoGroupOps
  have hstranger : ∀ g ∈ s.groups, ∀ c ∈ g.conns, addressesEqual c.addr (sampleAddr 3) = false := by
    rw [hgroups]
    intro g hg c hc
    rcases List.mem_cons.mp hg with rfl | hg
    · rw [List.mem_singleton.mp hc]
      exact sampleAddr_ne (by decide)
    · rw [List.mem_singleton.mp hg] at hc
      exact absurd hc List.not_mem_nil
  have hreach : Reachable s := ⟨twoGroupOps, rfl⟩
  have hreg1 := isSrtlaReg_iff.mp (Or.inl (isSrtlaReg1_reg1Frame default))
  refine ⟨by rw [hgroups]; exact List.mem_cons_of_mem _ List.mem_cons_self, rfl, ?_, ?_⟩
  · exact (stranger_not_served s hreach [0x90, 0] (sampleAddr 3) 0 default hstranger).1 (by decide)
  · obtain ⟨reply, heff, hlen⟩ := (stranger_not_served s hreach (reg1Frame default) (sampleAddr 3) 0
      { (default : PacketEnv) with sendtoRet := 32 } hstranger).2 hreg1
    rw [hreg1.1] at hlen
    exact ⟨reply, heff, hlen⟩

end Srtla.Receiver
