import Srtla.Lib.Cells
import Srtla.Sink.Tracker

/-!
# What the continuity metric sees (`tests/compat/srt-sink/ts_continuity.h:9-25`, `:81-113`)

The packets of a PID that carry a payload advance its continuity counter by one
modulo 16, the others repeat it. `cc_errors` counts the packets that do neither,
unless they announce it or belong to the null PID.

The tracker keeps the last counter of every PID and nothing else about it, so it is
one small machine for every PID (`cells_ccTracker`). Packets of other PIDs between
two packets of one PID do not matter.

* `ccErrors_feedAll`: the errors are the breaks that these machines report.
* `outs_of_clean`, `outs_of_gap`: one PID without and with a gap.
* `continuity_exact`: no error on a clean stream, and one if packets of one PID are
  lost, unless the number of them is a multiple of 16.
-/

namespace Srtla.Sink

open Lib Lib.Blocks

/-! ## Packets and clean streams -/

/-- A packet with a valid sync byte. -/
structure TsPacket where
  bytes : Bytes
  length_eq : bytes.length = tsPacketSize
  sync : mem bytes 0 = tsSyncByte

def TsPacket.pid (p : TsPacket) : Fin tsPidCount := pidIndex (mem p.bytes)

def TsPacket.cc (p : TsPacket) : ℕ := (Sink.cc (mem p.bytes)).toNat

def TsPacket.hasPayload (p : TsPacket) : Bool := Sink.hasPayload (mem p.bytes)

def TsPacket.discontinuity (p : TsPacket) : Bool := Sink.discontinuity (mem p.bytes)

/-- The PID of null packets. -/
def nullPid : Fin tsPidCount := ⟨tsNullPid.toNat, by decide⟩

/-- The counter of `q` is right after `p`. -/
def TsPacket.Follows (p q : TsPacket) : Prop := q.cc = if q.hasPayload then (p.cc + 1) % 16 else p.cc

instance (p q : TsPacket) : Decidable (p.Follows q) := inferInstanceAs (Decidable (_ = _))

/-- The packets of the PID `x`, in order. -/
def ofPid (x : Fin tsPidCount) (ps : List TsPacket) : List TsPacket := ps.filter fun p => p.pid = x

/-- The counters of all PIDs but the null PID are right. -/
def Clean (ps : List TsPacket) : Prop := ∀ x, x ≠ nullPid → (ofPid x ps).IsChain TsPacket.Follows

/-- The bytes of the packets. -/
def stream (ps : List TsPacket) : Bytes := (ps.map TsPacket.bytes).flatten

/-- `ps'` is `ps` without the packets `gap` of the PID `x`. They carry payload and stand
    in a row among the packets of `x`, with one before them and one right after them,
    which does not announce a discontinuity. -/
structure Loses (x : Fin tsPidCount) (gap ps ps' : List TsPacket) : Prop where
  pid : x ≠ nullPid
  sublist : ps'.Sublist ps
  others : (ps'.filter fun p => p.pid ≠ x) = ps.filter fun p => p.pid ≠ x
  payload : ∀ p ∈ gap, p.hasPayload = true
  own : ∃ before last next after,
    ofPid x ps = before ++ last :: (gap ++ next :: after) ∧
    ofPid x ps' = before ++ last :: next :: after ∧ next.discontinuity = false

variable {p q last next : TsPacket} {ps ps' gap before after : List TsPacket} {x : Fin tsPidCount}

/-! ## One PID -/

/-- The packets of one PID, on the entry of `last_cc_`; a break is reported. -/
def ccCell : Machine ℤ TsPacket Unit where
  init := -1
  step prev p := (p.cc, if breaks prev (mem p.bytes) then [()] else [])

theorem ccCell_outs_cons (prev : ℤ) (p : TsPacket) (ps : List TsPacket) :
    ccCell.outs prev (p :: ps) =
      (if breaks prev (mem p.bytes) then [()] else []) ++ ccCell.outs p.cc ps := rfl

theorem TsPacket.cc_lt (p : TsPacket) : p.cc < 16 := by
  unfold TsPacket.cc Sink.cc
  rw [UInt8.toNat_and]
  exact Nat.and_lt_two_pow _ (by decide : (0x0F : UInt8).toNat < 2 ^ 4)

theorem toNat_expectedCc {c : ℕ} (hc : c < 16) (payload : Bool) :
    (expectedCc payload c).toNat = if payload then (c + 1) % 16 else c := by
  have hand : ∀ n, n &&& 15 = n % 16 := fun n => Nat.and_two_pow_sub_one_eq_mod n 4
  cases payload with
  | false =>
    show (UInt8.ofNat (c : ℤ).toNat).toNat = c
    rw [Int.toNat_natCast, UInt8.toNat_ofNat']
    omega
  | true =>
    show (UInt8.ofNat ((c : ℤ) + 1).toNat &&& 0x0F).toNat = (c + 1) % 16
    have hcast : ((c : ℤ) + 1).toNat = c + 1 := by omega
    rw [hcast, UInt8.toNat_and, UInt8.toNat_ofNat']
    show (c + 1) % 2 ^ 8 &&& 15 = _
    rw [hand]
    omega

/-- A packet breaks the continuity unless it follows or announces a discontinuity. -/
theorem breaks_eq_true_iff : breaks p.cc (mem q.bytes) = true ↔ q.discontinuity = false ∧ ¬ p.Follows q := by
  have hcc : Sink.cc (mem q.bytes) = expectedCc q.hasPayload p.cc ↔ p.Follows q := by
    rw [← UInt8.toNat_inj, toNat_expectedCc p.cc_lt]
    rfl
  have hseen : decide ((p.cc : ℤ) ≥ 0) = true := decide_eq_true (Int.natCast_nonneg _)
  rw [breaks, hseen, Bool.true_and, Bool.and_eq_true, bne_iff_ne, Bool.not_eq_true', ← hcc]
  rfl

theorem outs_of_follows (h : (p :: ps).IsChain TsPacket.Follows) : ccCell.outs p.cc ps = [] := by
  induction ps generalizing p with
  | nil => rfl
  | cons q ps ih =>
    obtain ⟨hfollows, hrest⟩ := List.isChain_cons_cons.mp h
    have hnot : ¬ breaks p.cc (mem q.bytes) = true := fun hb => (breaks_eq_true_iff.mp hb).2 hfollows
    rw [ccCell_outs_cons, if_neg hnot, ih hrest, List.append_nil]

/-- The first packet of a PID is never a break. -/
theorem outs_of_clean (h : ps.IsChain TsPacket.Follows) : ccCell.outs (-1) ps = [] := by
  cases ps with
  | nil => rfl
  | cons p ps => rw [ccCell_outs_cons, outs_of_follows h]; rfl

/-- Packets with payload count on. -/
theorem cc_of_chain (h : (p :: (gap ++ [next])).IsChain TsPacket.Follows)
    (hpayload : ∀ q ∈ gap, q.hasPayload = true) :
    next.cc = if next.hasPayload then (p.cc + gap.length + 1) % 16 else (p.cc + gap.length) % 16 := by
  induction gap generalizing p with
  | nil =>
    have hfollows : p.Follows next := (List.isChain_cons_cons.mp h).1
    have hlt := p.cc_lt
    unfold TsPacket.Follows at hfollows
    rw [hfollows, List.length_nil]
    split_ifs <;> omega
  | cons q gap ih =>
    obtain ⟨hfollows, hrest⟩ := List.isChain_cons_cons.mp h
    obtain ⟨hq, hgap⟩ := List.forall_mem_cons.mp hpayload
    have hcc : q.cc = (p.cc + 1) % 16 := by
      unfold TsPacket.Follows at hfollows
      rwa [if_pos hq] at hfollows
    rw [ih hrest hgap, hcc, List.length_cons]
    split_ifs <;> omega

/-- A gap whose length is not a multiple of 16 shows. -/
theorem not_follows_of_gap (h : (last :: (gap ++ [next])).IsChain TsPacket.Follows)
    (hpayload : ∀ q ∈ gap, q.hasPayload = true) (hgap : ¬ 16 ∣ gap.length) : ¬ last.Follows next := by
  have hcc := cc_of_chain h hpayload
  have hlt := last.cc_lt
  unfold TsPacket.Follows
  rw [hcc]
  split_ifs <;> omega

/-- The packets of a PID with a gap: one break, at the packet right after it. -/
theorem outs_of_gap (h : (before ++ last :: (gap ++ next :: after)).IsChain TsPacket.Follows)
    (hpayload : ∀ q ∈ gap, q.hasPayload = true) (hgap : ¬ 16 ∣ gap.length)
    (hnext : next.discontinuity = false) : ccCell.outs (-1) (before ++ last :: next :: after) = [()] := by
  obtain ⟨hbefore, hrest⟩ := List.isChain_split.mp h
  have hafter : (next :: after).IsChain TsPacket.Follows := (List.isChain_cons_split.mp hrest).2
  have hbreak : breaks last.cc (mem next.bytes) = true :=
    breaks_eq_true_iff.mpr ⟨hnext, not_follows_of_gap (List.isChain_cons_split.mp hrest).1 hpayload hgap⟩
  have hsplit : before ++ last :: next :: after = (before ++ [last]) ++ next :: after := by
    rw [List.append_assoc, List.singleton_append]
  rw [hsplit, Machine.outs_append, outs_of_clean hbefore, Machine.run_concat, List.nil_append]
  show ccCell.outs last.cc (next :: after) = [()]
  rw [ccCell_outs_cons, if_pos hbreak, outs_of_follows hafter]
  rfl

/-! ## All PIDs -/

/-- The packets of all PIDs, on `last_cc_`. -/
def ccTracker : Machine (Fin tsPidCount → ℤ) (Fin tsPidCount × TsPacket) Unit where
  init := fun _ => -1
  step lastCc i := (Function.update lastCc i.1 i.2.cc, (ccCell.step (lastCc i.1) i.2).2)

/-- A packet reads and writes the entry of its PID only. -/
theorem cells_ccTracker : Machine.Cells ccTracker ccCell fun x lastCc => lastCc x where
  outs _ _ _ := rfl
  own _ _ _ := Function.update_self _ _ _
  other _ _ _ _ hne := Function.update_of_ne hne _ _

/-- The packets that `ccTracker` sees, with their PIDs. -/
def tracked (ps : List TsPacket) : List (Fin tsPidCount × TsPacket) :=
  (ps.filter fun p => p.pid ≠ nullPid).map fun p => (p.pid, p)

theorem inputsFor_tracked (hx : x ≠ nullPid) (ps : List TsPacket) :
    Machine.inputsFor x (tracked ps) = ofPid x ps := by
  have hfilter : ((ps.filter fun p => p.pid ≠ nullPid).filter fun p => p.pid = x) = ofPid x ps := by
    rw [List.filter_filter]
    refine List.filter_congr fun p _ => ?_
    by_cases hp : p.pid = x
    · simp [hp, hx]
    · simp [hp]
  rw [Machine.inputsFor, tracked, List.filter_map, List.map_map, ← hfilter]
  exact List.map_id _

theorem inputsFor_tracked_null (ps : List TsPacket) : Machine.inputsFor nullPid (tracked ps) = [] := by
  refine Machine.inputsFor_of_forall_ne fun i hi => ?_
  obtain ⟨p, hp, rfl⟩ := List.mem_map.mp hi
  exact of_decide_eq_true (List.mem_filter.mp hp).2

theorem pid_eq_null_iff (p : TsPacket) : Sink.pid (mem p.bytes) = tsNullPid ↔ p.pid = nullPid := by
  rw [← UInt16.toNat_inj]
  exact (Fin.ext_iff (a := p.pid) (b := nullPid)).symm

theorem Counts.parsePacket_null (s : Counts) (h : p.pid = nullPid) :
    s.parsePacket (mem p.bytes) = { s with packets := s.packets + 1 } := by
  rw [Counts.parsePacket, if_neg (not_not_intro p.sync), if_pos ((pid_eq_null_iff p).mpr h)]

theorem Counts.parsePacket_tracked (s : Counts) (h : p.pid ≠ nullPid) :
    s.parsePacket (mem p.bytes) =
      { packets := s.packets + 1
        syncErrors := s.syncErrors
        ccErrors := s.ccErrors + UInt64.ofNat (ccTracker.step s.lastCc (p.pid, p)).2.length
        lastCc := (ccTracker.step s.lastCc (p.pid, p)).1 } := by
  have herrors : (if breaks (s.lastCc p.pid) (mem p.bytes) then s.ccErrors + 1 else s.ccErrors) =
      s.ccErrors + UInt64.ofNat (ccTracker.step s.lastCc (p.pid, p)).2.length := by
    show _ = s.ccErrors + UInt64.ofNat (if breaks (s.lastCc p.pid) (mem p.bytes) then [()] else []).length
    split_ifs
    · rfl
    · exact (UInt64.add_zero _).symm
  rw [← herrors, Counts.parsePacket, if_neg (not_not_intro p.sync), if_neg (mt (pid_eq_null_iff p).mp h)]
  rfl

/-- The counts after some packets. -/
def Counts.parsePackets (s : Counts) (ps : List TsPacket) : Counts :=
  ps.foldl (fun s p => s.parsePacket (mem p.bytes)) s

theorem tracked_cons_null (h : p.pid = nullPid) (ps : List TsPacket) : tracked (p :: ps) = tracked ps := by
  rw [tracked, List.filter_cons_of_neg (by simpa using h), tracked]

theorem tracked_cons (h : p.pid ≠ nullPid) (ps : List TsPacket) :
    tracked (p :: ps) = (p.pid, p) :: tracked ps := by
  rw [tracked, List.filter_cons_of_pos (by simpa using h), List.map_cons, tracked]

/-- The errors counted are the breaks that `ccTracker` reports. -/
theorem Counts.parsePackets_ccErrors (s : Counts) (ps : List TsPacket) :
    (s.parsePackets ps).ccErrors =
      s.ccErrors + UInt64.ofNat (ccTracker.outs s.lastCc (tracked ps)).length := by
  induction ps generalizing s with
  | nil => exact (UInt64.add_zero _).symm
  | cons p ps ih =>
    show ((s.parsePacket (mem p.bytes)).parsePackets ps).ccErrors = _
    rw [ih]
    by_cases hp : p.pid = nullPid
    · rw [s.parsePacket_null hp, tracked_cons_null hp]
    · rw [s.parsePacket_tracked hp, tracked_cons hp, Machine.outs_cons, List.length_append, UInt64.ofNat_add,
        UInt64.add_assoc]

/-! ## Streams of packets -/

theorem blocks_stream (ps : List TsPacket) : blocks tsPacketSize (stream ps) = ps.map TsPacket.bytes := by
  refine blocks_flatten tsPacketSize_pos fun b hb => ?_
  obtain ⟨p, -, rfl⟩ := List.mem_map.mp hb
  exact p.length_eq

theorem Counts.parseAll_stream (s : Counts) (ps : List TsPacket) : s.parseAll (stream ps) = s.parsePackets ps := by
  rw [Counts.parseAll, blocks_stream, List.foldl_map]
  rfl

/-- The errors of a fresh tracker on a stream of packets, in any pieces. If all PIDs but
    `x` are clean they are the breaks of `x`. -/
theorem ccErrors_feedAll (carry : Mem) {chunks : List Bytes} (hchunks : chunks.flatten = stream ps)
    (hx : x ≠ nullPid) (hclean : ∀ k, k ≠ nullPid → k ≠ x → (ofPid k ps).IsChain TsPacket.Follows) :
    ((Tracker.create carry).feedAll chunks).ccErrors =
      UInt64.ofNat (ccCell.outs (-1) (ofPid x ps)).length := by
  have hsilent : ∀ k, k ≠ x → ccCell.outs (-1) (Machine.inputsFor k (tracked ps)) = [] := by
    intro k hk
    by_cases hnull : k = nullPid
    · rw [hnull, inputsFor_tracked_null]
      rfl
    · rw [inputsFor_tracked hnull]
      exact outs_of_clean (hclean k hnull hk)
  rw [congrArg Counts.ccErrors (Tracker.feedAll_create carry chunks).1, hchunks, Counts.parseAll_stream,
    Counts.parsePackets_ccErrors, cells_ccTracker.outs_of_lone x _ _ hsilent, inputsFor_tracked hx]
  exact UInt64.zero_add _

/-- The packets of a PID other than that of the lost ones are all there. -/
theorem Loses.ofPid_of_ne (h : Loses x gap ps ps') {k : Fin tsPidCount} (hk : k ≠ x) :
    ofPid k ps' = ofPid k ps := by
  have hfilter : ∀ l : List TsPacket, ofPid k l = ofPid k (l.filter fun p => p.pid ≠ x) := by
    intro l
    unfold ofPid
    rw [List.filter_filter]
    refine List.filter_congr fun p _ => ?_
    by_cases hp : p.pid = k
    · simp [hp, hk]
    · simp [hp]
  rw [hfilter ps', hfilter ps, h.others]

/-- **No false alarm and no missed loss.** On a clean stream, in any interleaving of the
    PIDs, with any null packets and in any pieces, the tracker reports no error. If
    packets with payload that stand in a row among the packets of one PID are lost, and
    their number is not a multiple of 16, it reports one. -/
theorem continuity_exact (carry : Mem) (hclean : Clean ps) :
    (∀ chunks, chunks.flatten = stream ps → ((Tracker.create carry).feedAll chunks).ccErrors = 0) ∧
    ∀ x gap ps', Loses x gap ps ps' → ¬ 16 ∣ gap.length →
      ∀ chunks, chunks.flatten = stream ps' → ((Tracker.create carry).feedAll chunks).ccErrors = 1 := by
  refine ⟨fun chunks hchunks => ?_, fun x gap ps' hloses hgap chunks hchunks => ?_⟩
  · have hzero : (⟨0, by decide⟩ : Fin tsPidCount) ≠ nullPid := by decide
    rw [ccErrors_feedAll carry hchunks hzero fun k hnull _ => hclean k hnull, outs_of_clean (hclean _ hzero)]
    rfl
  · obtain ⟨before, last, next, after, hps, hps', hnext⟩ := hloses.own
    have hchain := hclean x hloses.pid
    rw [hps] at hchain
    have hothers : ∀ k, k ≠ nullPid → k ≠ x → (ofPid k ps').IsChain TsPacket.Follows := by
      intro k hnull hk
      rw [hloses.ofPid_of_ne hk]
      exact hclean k hnull
    rw [ccErrors_feedAll carry hchunks hloses.pid hothers, hps', outs_of_gap hchain hloses.payload hgap hnext]
    rfl

/-- A packet with payload, as `make_packet` of the tests builds it. -/
def samplePacket (x : UInt16) (c : UInt8) : TsPacket where
  bytes := [tsSyncByte, (x >>> 8).toUInt8 &&& 0x1F, x.toUInt8, 0x10 ||| (c &&& 0x0F)] ++ List.replicate 184 0xFF
  length_eq := by
    rw [List.length_append, List.length_replicate]
    rfl
  sync := rfl

/-- Packets of the PID 0x100 and a null packet. -/
def sampleStream : List TsPacket :=
  [samplePacket 0x100 0, samplePacket 0x1FFF 9, samplePacket 0x100 1, samplePacket 0x100 2]

theorem clean_sampleStream : Clean sampleStream := by
  have hpids : ∀ p ∈ sampleStream, p.pid = ⟨0x100, by decide⟩ ∨ p.pid = nullPid := by decide
  intro x hx
  by_cases h : x = ⟨0x100, by decide⟩
  · rw [h]
    show List.IsChain TsPacket.Follows [samplePacket 0x100 0, samplePacket 0x100 1, samplePacket 0x100 2]
    exact .cons_cons (by decide) (.cons_cons (by decide) (.singleton _))
  · have hnone : ofPid x sampleStream = [] := by
      refine List.filter_eq_nil_iff.mpr fun p hp hpid => ?_
      rw [← of_decide_eq_true hpid] at h hx
      exact (hpids p hp).elim h hx
    rw [hnone]
    exact .nil

/-- The second packet of the PID is lost. -/
theorem loses_samplePacket :
    Loses ⟨0x100, by decide⟩ [samplePacket 0x100 1] sampleStream
      [samplePacket 0x100 0, samplePacket 0x1FFF 9, samplePacket 0x100 2] where
  pid := by decide
  sublist := .cons_cons _ (.cons_cons _ (.cons _ (.refl _)))
  others := rfl
  payload := by decide
  own := ⟨[], samplePacket 0x100 0, samplePacket 0x100 2, [], rfl, rfl, by decide⟩

/-- The stream of four packets has no error, and one without the second of its PID. -/
theorem continuity_exact_sample :
    Clean sampleStream ∧
      ((Tracker.create fun _ => 0).feedAll [stream sampleStream]).ccErrors = 0 ∧
      ((Tracker.create fun _ => 0).feedAll
        [stream [samplePacket 0x100 0, samplePacket 0x1FFF 9, samplePacket 0x100 2]]).ccErrors = 1 := by
  obtain ⟨hnone, hone⟩ := continuity_exact (fun _ => 0) clean_sampleStream
  refine ⟨clean_sampleStream, hnone _ List.flatten_singleton, ?_⟩
  exact hone _ _ _ loses_samplePacket (by decide) _ List.flatten_singleton

end Srtla.Sink
