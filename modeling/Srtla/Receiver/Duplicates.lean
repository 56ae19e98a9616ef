import Srtla.Receiver.Balance
import Srtla.Receiver.GroupStep
import Srtla.Receiver.Repeats

/-!
# Duplicate NAKs (`src/protocol/srtla_handler.cpp:43-48, 154-178`)

`is_duplicate_nak` hashes the first 128 bytes behind the header of a NAK and asks
the cache of the group. The cache of a group is a run of `should_accept_nak` on the
NAKs that its connections received, so what holds of such runs holds of groups.

* `cached_run`: the cache of a group in every run of the receiver.
* `nakHash_eq`: what `is_duplicate_nak` hashes.
* `suppressed_after_same_hash`: a NAK is dropped only after one with the same hash.

**Deviation from the intent.** Bytes after the first 128 of a loss list do not
count: a NAK that differs from an accepted one only there is dropped
(`other_losses_suppressed`).
-/

namespace Srtla.Receiver

open Lib

/-- The hash that `is_duplicate_nak` computes. -/
def nakHash (buf : Bytes) : UInt64 := hashNakPayload (mem buf) buf.length 128

/-- The call to `should_accept_nak` that an input makes on the group `ref`. -/
def State.nakCall (s : State) (ref : ℕ) : Op → Option (UInt64 × UInt64)
  | .packet buf addr _ env =>
    match findByAddress s.groups addr with
    | some (g, some _) => if g.ref = ref ∧ isSrtNakPacket buf then some (nakHash buf, env.nakMs) else none
    | _ => none
  | _ => none

/-- The calls that were made on the group `ref`. -/
def nakCalls (ref : ℕ) (es : List (Machine.Event State Op Effect)) : List (UInt64 × UInt64) :=
  es.filterMap fun e => e.pre.nakCall ref e.input

variable {s : State} {g g' : ConnectionGroup} {c : Connection} {buf : Bytes} {addr : SockaddrStorage}
  {ts : ℤ} {env : PacketEnv} {op : Op} {ref : ℕ}

/-! ## The hash -/

/-- The hash is one of the bytes from offset 16 on, 128 of them at most. -/
theorem nakHash_eq (buf : Bytes) :
    nakHash buf =
      if buf.length ≤ 16 then 0
      else ((buf.drop 16).take 128).foldl (fun hash b => (hash ^^^ b.toUInt64) * fnvPrime) fnvOffsetBasis := by
  unfold nakHash hashNakPayload
  by_cases hlen : buf.length ≤ 16
  · rw [if_pos hlen, if_pos (by omega)]
  · have hcut : (if 0 ≤ (128 : ℤ) ∧ (128 : ℤ).toNat < ((buf.length : ℤ) - 16).toNat then (128 : ℤ).toNat
        else ((buf.length : ℤ) - 16).toNat) = min 128 (buf.length - 16) := by
      split_ifs <;> omega
    rw [if_neg hlen, if_neg (by omega)]
    dsimp only
    rw [hcut, ← window_mem_min, window, List.foldl_map]

/-- NAKs with the same first 128 bytes behind the header have the same hash. -/
theorem nakHash_congr {buf' : Bytes} (h : (buf.drop 16).take 128 = (buf'.drop 16).take 128) :
    nakHash buf = nakHash buf' := by
  have hshort : buf.length ≤ 16 ↔ buf'.length ≤ 16 := by
    have hlen := congrArg List.length h
    simp only [List.length_take, List.length_drop] at hlen
    omega
  rw [nakHash_eq, nakHash_eq, h]
  simp only [hshort]

/-! ## NAK packets -/

theorem isSrtNakPacket_iff :
    isSrtNakPacket buf = true ↔ sizeofSrtHeader ≤ buf.length ∧ getSrtType (mem buf) buf.length = srtTypeNak := by
  unfold isSrtNakPacket
  split_ifs with hlen
  · exact ⟨False.elim, fun h => absurd h.1 (not_le.mpr hlen)⟩
  · rw [beq_iff_eq]
    exact ⟨fun h => ⟨not_lt.mp hlen, h⟩, And.right⟩

theorem not_isSrtlaReg_of_isSrtNakPacket (h : isSrtNakPacket buf = true) :
    isSrtlaReg1 (mem buf) buf.length = false ∧ isSrtlaReg2 (mem buf) buf.length = false := by
  have htype := (isSrtNakPacket_iff.mp h).2
  simp [isSrtlaReg1, isSrtlaReg2, htype, srtTypeNak, srtlaTypeReg1, srtlaTypeReg2]

theorem carriesData_of_isSrtNakPacket (h : isSrtNakPacket buf = true) : carriesData buf = true := by
  obtain ⟨hlen, htype⟩ := isSrtNakPacket_iff.mp h
  have hmin : srtMinLen ≤ buf.length := hlen
  simp [carriesData, isSrtlaKeepalive, htype, srtTypeNak, srtlaTypeKeepalive, hmin]

theorem onNak_nakSeenHash (g : ConnectionGroup) (c : Connection) (buf : Bytes) (ts : ℤ) (env : PacketEnv) :
    (onNak g c buf ts env).2.1.nakSeenHash = (shouldAcceptNak g.nakSeenHash (nakHash buf) env.nakMs).2 := by
  unfold onNak
  dsimp only
  split_ifs
  · rfl
  · rw [(evaluateGroup_frame _ ts env.evalMs).2]
    rfl
  · rfl

/-- What a packet on a connection leaves of the group's cache. -/
theorem onPacket_nakSeenHash (g : ConnectionGroup) (c : Connection) (buf : Bytes) (addr : SockaddrStorage)
    (ts : ℤ) (env : PacketEnv) :
    (onPacket g c buf addr ts env).group.nakSeenHash =
      if isSrtNakPacket buf then (shouldAcceptNak g.nakSeenHash (nakHash buf) env.nakMs).2
      else g.nakSeenHash := by
  cases hdata : carriesData buf with
  | false =>
    have hnak : ¬ isSrtNakPacket buf = true := fun h => by
      rw [carriesData_of_isSrtNakPacket h] at hdata
      exact absurd hdata (by decide)
    rw [if_neg hnak]
    by_cases hkeep : isSrtlaKeepalive (mem buf) buf.length = true
    · rw [onPacket_of_keepalive hkeep]
      rfl
    · have hshort := (carriesData_eq_false_iff.mp hdata).resolve_left hkeep
      rw [onPacket_of_short hkeep hshort]
      rfl
  | true =>
    rw [onPacket_of_carriesData hdata]
    dsimp only
    cases isSrtNakPacket buf with
    | false =>
      rw [if_neg Bool.false_ne_true, if_neg Bool.false_ne_true, Bool.not_true, if_neg Bool.false_ne_true]
      dsimp only
      rw [onSequenceNumber_frame]
      rfl
    | true =>
      rw [if_pos rfl, if_pos rfl]
      split_ifs
      · exact onNak_nakSeenHash _ _ buf ts env
      · dsimp only
        rw [onSequenceNumber_frame]
        exact onNak_nakSeenHash _ _ buf ts env

theorem State.nakCall_eq_some_iff {call : UInt64 × UInt64} :
    s.nakCall ref op = some call ↔
      ∃ buf addr ts env g c, op = .packet buf addr ts env ∧ findByAddress s.groups addr = some (g, some c) ∧
        g.ref = ref ∧ isSrtNakPacket buf = true ∧ call = (nakHash buf, env.nakMs) := by
  constructor
  · intro h
    unfold State.nakCall at h
    split at h
    · split at h
      · split_ifs at h with hcond
        exact ⟨_, _, _, _, _, _, rfl, ‹_›, hcond.1, hcond.2, (Option.some.inj h).symm⟩
      · exact absurd h (by simp)
    · exact absurd h (by simp)
  · rintro ⟨buf, addr, ts, env, g, c, rfl, hf, href, hnak, rfl⟩
    simp only [State.nakCall, hf]
    rw [if_pos ⟨href, hnak⟩]

/-! ## Groups -/

theorem State.nakCall_of_reg (h : isSrtlaReg1 (mem buf) buf.length = true ∨
    isSrtlaReg2 (mem buf) buf.length = true) : s.nakCall ref (.packet buf addr ts env) = none := by
  refine Option.eq_none_iff_forall_ne_some.mpr fun call hcall => ?_
  obtain ⟨_, _, _, _, _, _, hop, -, -, hnak, -⟩ := State.nakCall_eq_some_iff.mp hcall
  cases hop
  obtain ⟨h1, h2⟩ := not_isSrtlaReg_of_isSrtNakPacket hnak
  rcases h with h | h
  · exact Bool.eq_false_iff.mp h1 h
  · exact Bool.eq_false_iff.mp h2 h

/-- No call is made on a group that receives nothing. -/
theorem State.nakCall_of_apart (h : Inv s) (hg : g ∈ s.groups) (hapart : op.receivedBy g = false) :
    s.nakCall g.ref op = none := by
  refine Option.eq_none_iff_forall_ne_some.mpr fun call hcall => ?_
  obtain ⟨buf, addr, ts, env, x, c, rfl, hf, href, hnak, -⟩ := State.nakCall_eq_some_iff.mp hcall
  obtain ⟨hx, hc, ha⟩ := findByAddress_conn hf
  have hsame : x = g := Keyed.eq_of_key_eq h.refs hx hg href
  refine Bool.eq_false_iff.mp hapart (Op.receivedBy_eq_true_iff.mpr ?_)
  exact ⟨not_isSrtlaReg_of_isSrtNakPacket hnak, c, hsame ▸ hc, ha⟩

theorem run_nakCall_none (h : s.nakCall g.ref op = none) :
    nakDedup.run g.nakSeenHash (s.nakCall g.ref op).toList = g.nakSeenHash := by
  rw [h]
  rfl

/-- An input makes at most one call on the cache of a group, and a new group has
    an empty one. -/
theorem step_nakSeenHash (h : Inv s) (op : Op) (hg' : g' ∈ (step s op).1.groups) :
    g'.ref = s.nextRef ∧ g'.nakSeenHash = ∅ ∨
      ∃ g ∈ s.groups, g'.ref = g.ref ∧
        g'.nakSeenHash = nakDedup.run g.nakSeenHash (s.nakCall g.ref op).toList := by
  cases step_groupStep h op hg' with
  | kept hg hapart =>
    refine .inr ⟨g', hg, rfl, ?_⟩
    rw [run_nakCall_none (State.nakCall_of_apart h hg hapart)]
  | created _ heq =>
    rw [heq]
    exact .inl ⟨rfl, rfl⟩
  | @joined g buf addr ts env h2 hid heq =>
    refine .inr ⟨g, (findGroupById_eq_some hid).1, by rw [heq]; rfl, ?_⟩
    rw [run_nakCall_none (State.nakCall_of_reg (Or.inr h2)), heq]
    rfl
  | @repeated g c buf addr ts env h2 hf heq =>
    refine .inr ⟨g, (findByAddress_conn hf).1, by rw [heq], ?_⟩
    rw [run_nakCall_none (State.nakCall_of_reg (Or.inr h2)), heq]
  | @received g c buf addr ts env h1 h2 hf hafter =>
    refine .inr ⟨g, (findByAddress_conn hf).1, afterPacket_ref hafter, ?_⟩
    have hcache : g'.nakSeenHash = (onPacket g c buf addr ts env).group.nakSeenHash := by
      rw [afterPacket_frame hafter]
    rw [hcache, onPacket_nakSeenHash]
    simp only [State.nakCall, hf, true_and]
    split_ifs <;> rfl
  | @server g ref env hg heq =>
    refine .inr ⟨g, hg, by rw [heq], ?_⟩
    rw [run_nakCall_none rfl, heq]
  | @reaped g t ret hg _ heq =>
    refine .inr ⟨g, hg, by rw [heq], ?_⟩
    rw [run_nakCall_none rfl, heq]
  | @assessed g t ms hg heq =>
    have hframe := (assess_frame g t (ms g.ref)).2
    refine .inr ⟨g, hg, by rw [heq, hframe], ?_⟩
    rw [run_nakCall_none rfl, heq, hframe]

/-- The caches of the registered groups against the calls made so far. -/
structure Cached (es : List (Machine.Event State Op Effect)) (s : State) : Prop where
  inv : Inv s
  cache : ∀ g ∈ s.groups, g.nakSeenHash = nakDedup.run ∅ (nakCalls g.ref es)
  fresh : ∀ ref, s.nextRef ≤ ref → nakCalls ref es = []

theorem nakCalls_concat (ref : ℕ) (es : List (Machine.Event State Op Effect))
    (e : Machine.Event State Op Effect) :
    nakCalls ref (es ++ [e]) = nakCalls ref es ++ (e.pre.nakCall ref e.input).toList := by
  unfold nakCalls
  rw [List.filterMap_append, List.filterMap_cons, List.filterMap_nil]
  cases e.pre.nakCall ref e.input <;> rfl

theorem Cached.step {es : List (Machine.Event State Op Effect)} (h : Cached es s) (op : Op) :
    Cached (es ++ [⟨s, op, (receiver.step s op).2⟩]) (receiver.step s op).1 := by
  have hinv : Inv (receiver.step s op).1 := run_inv h.inv [op]
  have hnext : s.nextRef ≤ (receiver.step s op).1.nextRef := run_nextRef_le h.inv [op]
  have hunused : ∀ ref, s.nextRef ≤ ref → s.nakCall ref op = none := by
    intro ref hle
    refine Option.eq_none_iff_forall_ne_some.mpr fun call hcall => ?_
    obtain ⟨_, _, _, _, g, _, -, hf, href, -, -⟩ := State.nakCall_eq_some_iff.mp hcall
    have hlt := (h.inv.wf g (findByAddress_conn hf).1).ref_lt
    omega
  refine ⟨hinv, fun g' hg' => ?_, fun ref hle => ?_⟩
  · rw [nakCalls_concat, Machine.run_append]
    rcases step_nakSeenHash h.inv op hg' with ⟨href, hempty⟩ | ⟨g, hg, href, hcall⟩
    · rw [href, h.fresh _ le_rfl, hunused _ le_rfl]
      exact hempty
    · rw [href, ← h.cache g hg]
      exact hcall
  · rw [nakCalls_concat, h.fresh ref (hnext.trans hle), hunused ref (hnext.trans hle)]
    rfl

/-- **The cache of a group** is what `should_accept_nak` makes of the empty cache on
    the NAKs of the group, in every run. -/
theorem cached_run (ops : List Op) : Cached (receiver.hist State.init ops) (receiver.run State.init ops) := by
  refine receiver.hist_invariant (R := Cached) ?_ (fun es s op h => h.step op) ops
  exact ⟨reachable_inv receiver.reachable_init, fun g hg => absurd hg List.not_mem_nil, fun ref _ => rfl⟩

/-! ## Suppressed NAKs -/

/-- The step is a NAK on a connection of the group `ref`, which is `accepted` or
    dropped as a duplicate. -/
def NakOn (e : Machine.Event State Op Effect) (ref : ℕ) (buf : Bytes) (accepted : Bool) : Prop :=
  ∃ addr ts env g c, e.input = .packet buf addr ts env ∧ isSrtNakPacket buf = true ∧
    findByAddress e.pre.groups addr = some (g, some c) ∧ g.ref = ref ∧ nakAccepted g buf env = accepted

/-- A call on the group `ref` was made by a step. -/
theorem nakCalls_split {es : List (Machine.Event State Op Effect)} {before after : List (UInt64 × UInt64)}
    {call : UInt64 × UInt64} (h : nakCalls ref es = before ++ call :: after) :
    ∃ es₁ e es₂, es = es₁ ++ e :: es₂ ∧ nakCalls ref es₁ = before ∧
      e.pre.nakCall ref e.input = some call := by
  obtain ⟨l₁, l, rfl, hl₁, hl⟩ := List.filterMap_eq_append_iff.mp h
  obtain ⟨l₂, e, l₃, rfl, hl₂, he, -⟩ := List.filterMap_eq_cons_iff.mp hl
  refine ⟨l₁ ++ l₂, e, l₃, (List.append_assoc _ _ _).symm, ?_, he⟩
  rw [nakCalls, List.filterMap_append, hl₁, List.filterMap_eq_nil_iff.mpr hl₂, List.append_nil]

/-- A dropped NAK is counted and goes nowhere. -/
theorem onPacket_suppressed (hnak : isSrtNakPacket buf = true) (hdrop : nakAccepted g buf env = false) :
    (onPacket g c buf addr ts env).effects = [] ∧
      (onPacket g c buf addr ts env).incs = (c.touch ts).2 ++ [(.naksSuppressed, 1)] := by
  have hcall : (shouldAcceptNak (streaming g c buf addr ts).2.nakSeenHash
      (hashNakPayload (mem buf) buf.length 128) env.nakMs).1 = false := by
    rw [nakAccepted, hnak, Bool.not_true, Bool.false_or] at hdrop
    exact hdrop
  rw [onPacket_of_carriesData (carriesData_of_isSrtNakPacket hnak)]
  dsimp only
  rw [if_pos hnak, onNak_fst, hcall, Bool.not_false, if_pos rfl, onNak]
  dsimp only
  rw [hcall, Bool.not_false, if_pos rfl]
  exact ⟨rfl, rfl⟩

theorem step_suppressed (hnak : isSrtNakPacket buf = true)
    (hf : findByAddress s.groups addr = some (g, some c)) (hdrop : nakAccepted g buf env = false) :
    (step s (.packet buf addr ts env)).2 = [] ∧
      (step s (.packet buf addr ts env)).1.metrics .naksSuppressed = s.metrics .naksSuppressed + 1 := by
  obtain ⟨h1, h2⟩ := not_isSrtlaReg_of_isSrtNakPacket hnak
  obtain ⟨heffects, hincs⟩ := @onPacket_suppressed g c buf addr ts env hnak hdrop
  have hrelays : ¬ relays g buf env = true := by
    rw [relays, hdrop, Bool.and_false]
    exact Bool.false_ne_true
  have htouch : Incs.total .naksSuppressed (c.touch ts).2 = 0 := by
    unfold Connection.touch
    split_ifs <;> rfl
  rw [step, processSinglePacket_conn_eq h1 h2 hf]
  dsimp only
  rw [if_neg hrelays]
  refine ⟨heffects, ?_⟩
  show s.metrics _ + Incs.total .naksSuppressed (onPacket g c buf addr ts env).incs = _
  rw [hincs, Incs.total_append, htouch]
  rfl

/-- **A NAK is dropped only after one with the same hash**, in every run of the
    receiver: it is counted and nothing is sent, and a NAK whose first 128 bytes
    behind the header have the same hash was accepted on the group before. -/
theorem suppressed_after_same_hash (ops : List Op) {before after : List (Machine.Event State Op Effect)}
    {e : Machine.Event State Op Effect} (hhist : receiver.hist State.init ops = before ++ e :: after)
    {ref : ℕ} {buf : Bytes} (hdrop : NakOn e ref buf false) :
    (e.outs = [] ∧
      (receiver.step e.pre e.input).1.metrics .naksSuppressed = e.pre.metrics .naksSuppressed + 1) ∧
    ∃ e' ∈ before, ∃ buf', NakOn e' ref buf' true ∧ nakHash buf' = nakHash buf := by
  obtain ⟨ops₁, -, -, rfl, hpre, houts⟩ := receiver.hist_split hhist
  obtain ⟨addr, ts, env, g, c, hinput, hnak, hf, href, hanswer⟩ := hdrop
  refine ⟨?_, ?_⟩
  · obtain ⟨hnothing, hcounted⟩ := @step_suppressed e.pre g c buf addr ts env hnak hf hanswer
    rw [houts, hinput]
    exact ⟨hnothing, hcounted⟩
  · -- the cache has an entry for the hash, which an accepted call has made
    have hcache := (cached_run ops₁).cache g (hpre ▸ (findByAddress_conn hf).1)
    obtain ⟨entry, hentry⟩ : ∃ entry, g.nakSeenHash.lookup (nakHash buf) = some entry := by
      refine Option.ne_none_iff_exists'.mp fun hnone => ?_
      rw [nakAccepted_of_nak hnak] at hanswer
      have haccept : (shouldAcceptNak g.nakSeenHash (nakHash buf) env.nakMs).1 = true := by
        rw [shouldAcceptNak_none hnone]
      exact Bool.false_ne_true (hanswer.symm.trans haccept)
    rw [hcache, href] at hentry
    obtain ⟨calls, now, calls', hcalls, haccepted⟩ := exists_accepted_of_lookup hentry
    -- the step that made the call
    obtain ⟨es, e', es', hes, hbefore, hcall⟩ := nakCalls_split hcalls
    obtain ⟨ops₂, -, -, rfl, hpre', -⟩ := receiver.hist_split hes
    obtain ⟨buf', addr', ts', env', g', c', hinput', hf', href', hnak', hargs⟩ :=
      State.nakCall_eq_some_iff.mp hcall
    obtain ⟨hhash, rfl⟩ := Prod.mk.inj hargs
    have hcache' := (cached_run ops₂).cache g' (hpre' ▸ (findByAddress_conn hf').1)
    rw [href', hbefore] at hcache'
    refine ⟨e', hes ▸ by simp, buf', ⟨addr', ts', env', g', c', hinput', hnak', hf', href', ?_⟩, hhash.symm⟩
    rw [nakAccepted_of_nak hnak', hcache']
    rw [hhash] at haccepted
    exact haccepted

/-- A NAK with the hash of the one accepted just before is dropped, while the
    entry of the hash does not accept its time. -/
theorem nak_again_suppressed (h : Inv s) (hgroups : s.groups = [g]) (hconns : g.conns = [c])
    (haddr : c.addr = addr) {buf' : Bytes}
    (hunseen : g.nakSeenHash.lookup (nakHash buf) = none) {env' : PacketEnv}
    (hnak : isSrtNakPacket buf = true) (hnak' : isSrtNakPacket buf' = true) (hhash : nakHash buf' = nakHash buf)
    (htaken : g.survives buf env.forward = true)
    (hsoon : ¬ NakHashEntry.Accepts ⟨env.nakMs, 0⟩ env'.nakMs) :
    ∀ outs outs', NakOn ⟨s, .packet buf addr ts env, outs⟩ g.ref buf true ∧
      NakOn ⟨(receiver.step s (.packet buf addr ts env)).1, .packet buf' addr ts env', outs'⟩ g.ref buf' false := by
  subst haddr
  have hcall : (shouldAcceptNak g.nakSeenHash (nakHash buf) env.nakMs) =
      (true, g.nakSeenHash.insert (nakHash buf) ⟨env.nakMs, 0⟩) := shouldAcceptNak_none hunseen _
  have hfirst : nakAccepted g buf env = true := by
    rw [nakAccepted_of_nak hnak]
    exact congrArg Prod.fst hcall
  obtain ⟨g', hafter⟩ : ∃ g', afterPacket g c buf c.addr ts env = some g' := by
    rw [afterPacket, relays, hfirst, carriesData_of_isSrtNakPacket hnak]
    exact ⟨_, if_pos htaken⟩
  obtain ⟨hgroups', c', hconns', haddr'⟩ :=
    step_packet_lone h hgroups hconns (not_isSrtlaReg_of_isSrtNakPacket hnak) hafter
  have hentry : g'.nakSeenHash.lookup (nakHash buf') = some ⟨env.nakMs, 0⟩ := by
    have hframe : g'.nakSeenHash = (onPacket g c buf c.addr ts env).group.nakSeenHash := by
      rw [afterPacket_frame hafter]
    rw [hframe, onPacket_nakSeenHash, if_pos hnak, hcall, hhash]
    exact AList.lookup_insert _
  have hfound := findByAddress_registered (run_inv h [.packet buf c.addr ts env])
    (hgroups' ▸ List.mem_singleton_self g') (hconns' ▸ List.mem_singleton_self c')
  rw [haddr'] at hfound
  have hsecond : nakAccepted g' buf' env' = false := by
    rw [nakAccepted_of_nak hnak']
    show (shouldAcceptNak g'.nakSeenHash (nakHash buf') env'.nakMs).1 = false
    rw [shouldAcceptNak_some hentry, if_neg hsoon]
  have hf := findByAddress_registered h (hgroups ▸ List.mem_singleton_self g)
    (hconns ▸ List.mem_singleton_self c)
  exact fun outs outs' => ⟨⟨c.addr, ts, env, g, c, rfl, hnak, hf, rfl, hfirst⟩,
    ⟨c.addr, ts, env', g', c', rfl, hnak', hfound, afterPacket_ref hafter, hsecond⟩⟩

/-! ## Loss lists that differ after 128 bytes -/

/-- A NAK whose loss list has 129 bytes, `last` after 128 zeros. -/
def longNak (last : UInt8) : Bytes :=
  (putBe16 srtTypeNak ++ List.replicate 14 0) ++ (List.replicate 128 0 ++ [last])

/-- The server takes the NAK, which arrives at `ms`. -/
def longNakEnv (ms : UInt64) : PacketEnv :=
  { (default : PacketEnv) with nakMs := ms, forward := { (default : ForwardEnv) with sendRet := 145 } }

/-- A handshake and two long NAKs within 10 ms. -/
def longNakOps : List Op :=
  handshake default default (sampleAddr 1) (sampleAddr 2) 0 0 ++
    [.packet (longNak 1) (sampleAddr 2) 0 (longNakEnv 0), .packet (longNak 2) (sampleAddr 2) 0 (longNakEnv 10)]

theorem length_longNak (last : UInt8) : (longNak last).length = 145 := by
  simp [longNak]

theorem isSrtNakPacket_longNak (last : UInt8) : isSrtNakPacket (longNak last) = true := by
  refine isSrtNakPacket_iff.mpr ⟨by rw [length_longNak]; decide, ?_⟩
  rw [getSrtType, length_longNak, if_neg (by decide), longNak, List.append_assoc]
  exact be16_putBe16 (by decide) _

theorem drop_longNak (last : UInt8) : (longNak last).drop 16 = List.replicate 128 0 ++ [last] :=
  List.drop_left' rfl

/-- The first 128 bytes of the two loss lists are the same. -/
theorem nakHash_longNak (a b : UInt8) : nakHash (longNak a) = nakHash (longNak b) := by
  apply nakHash_congr
  rw [drop_longNak, drop_longNak, List.take_left' List.length_replicate, List.take_left' List.length_replicate]

/-- The first of the two NAKs is accepted, the second one is not. -/
theorem nakOn_longNak :
    let s := receiver.run State.init (handshake default default (sampleAddr 1) (sampleAddr 2) 0 0)
    ∀ outs outs', NakOn ⟨s, .packet (longNak 1) (sampleAddr 2) 0 (longNakEnv 0), outs⟩ 0 (longNak 1) true ∧
      NakOn ⟨(receiver.step s (.packet (longNak 1) (sampleAddr 2) 0 (longNakEnv 0))).1,
        .packet (longNak 2) (sampleAddr 2) 0 (longNakEnv 10), outs'⟩ 0 (longNak 2) false := by
  have hgroups := (run_handshake default default (sampleAddr 1) (sampleAddr 2) 0 0).1
  have hinv : Inv (receiver.run State.init (handshake default default (sampleAddr 1) (sampleAddr 2) 0 0)) :=
    reachable_inv ⟨_, rfl⟩
  -- the handshake itself is not to be evaluated
  generalize receiver.run State.init (handshake default default (sampleAddr 1) (sampleAddr 2) 0 0) = s
    at hgroups hinv ⊢
  have hsent : (longNakEnv 0).forward.sendRet = (longNak 1).length := by
    rw [length_longNak]
    rfl
  have htaken : ∀ g : ConnectionGroup, g.survives (longNak 1) (longNakEnv 0).forward = true := by
    intro g
    have hopens : (longNakEnv 0).forward.socket.opens = true := rfl
    simp [ConnectionGroup.survives, ConnectionGroup.getsSocket, ForwardEnv.fatal, hopens, hsent]
  have hsoon : ¬ NakHashEntry.Accepts ⟨(longNakEnv 0).nakMs, 0⟩ (longNakEnv 10).nakMs := by decide
  exact @nak_again_suppressed s _ (.create 1 (sampleAddr 2) 0) (longNak 1) (sampleAddr 2) 0 (longNakEnv 0) hinv
    hgroups rfl rfl (longNak 2) (AList.lookup_empty _) (longNakEnv 10) (isSrtNakPacket_longNak 1)
    (isSrtNakPacket_longNak 2) (nakHash_longNak 2 1) (htaken _) hsoon

/-- The second NAK is dropped, and the only NAK accepted before it reports other
    losses. -/
theorem other_losses_suppressed :
    ∃ ops before e after ref buf, receiver.hist State.init ops = before ++ e :: after ∧
      NakOn e ref buf false ∧ ∀ e' ∈ before, ∀ buf', NakOn e' ref buf' true → buf'.drop 16 ≠ buf.drop 16 := by
  refine ⟨longNakOps, _, _, [], 0, longNak 2, receiver.hist_pair State.init _ _ _, (nakOn_longNak [] _).2, ?_⟩
  rintro e' he' buf' ⟨addr, ts, env, g, c, hinput, hnak, -, -, -⟩
  rcases List.mem_append.mp he' with he' | he'
  · -- the datagrams of the handshake are no NAKs
    obtain ⟨h1, h2⟩ := not_isSrtlaReg_of_isSrtNakPacket hnak
    rcases List.mem_cons.mp he' with rfl | he'
    · cases hinput
      exact absurd (isSrtlaReg1_reg1Frame _) (Bool.eq_false_iff.mp h1)
    · rw [List.mem_singleton.mp he'] at hinput
      cases hinput
      exact absurd (isSrtlaReg2_reg2Frame _) (Bool.eq_false_iff.mp h2)
  · rw [List.mem_singleton.mp he'] at hinput
    cases hinput
    rw [drop_longNak, drop_longNak]
    intro h
    exact absurd (List.append_cancel_left h) (by decide)

/-- A second NAK within 10 ms. -/
theorem suppressed_after_same_hash_second :
    ∃ before e, receiver.hist State.init longNakOps = before ++ e :: [] ∧ NakOn e 0 (longNak 2) false ∧
      e.outs = [] := by
  refine ⟨_, _, receiver.hist_pair State.init _ _ _, (nakOn_longNak [] _).2, ?_⟩
  exact (suppressed_after_same_hash longNakOps (receiver.hist_pair State.init _ _ _) (nakOn_longNak [] _).2).1.1

end Srtla.Receiver
