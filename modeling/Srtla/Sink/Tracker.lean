import Srtla.Lib.Blocks
import Srtla.Lib.Bytes

/-!
# The continuity tracker of srt-sink (`tests/compat/srt-sink/ts_continuity.h`)

`tscont::Tracker` reads an MPEG transport stream in the pieces in which `srt_recv`
delivers it. It counts the packets of 188 bytes, those without a sync byte, and the
breaks in the continuity counter of every PID. A packet that straddles two calls of
`feed` is put together in a carry buffer.

`carryLen` is below the packet size by its type, so that the loops that fill the
buffer stay inside it; a PID is an index of `last_cc_` by `pid_lt`. What the buffer
holds beyond `carryLen` is left from earlier calls and means nothing.

* `feed_spec`: a call parses the whole packets of the carried bytes and the new
  ones, and carries the rest.
* `chunking_irrelevant`: how a stream is cut into calls makes no difference.
-/

namespace Srtla.Sink

open Lib Lib.Blocks

/-! ## Constants (lines 35-38) -/

def tsPacketSize : ℕ := 188
def tsSyncByte : Byte := 0x47
def tsNullPid : UInt16 := 0x1FFF
def tsPidCount : ℕ := 8192

theorem tsPacketSize_pos : 0 < tsPacketSize := by decide

/-! ## Header fields (lines 88-103) -/

/-- `pid`: 13 bits. -/
def pid (p : Mem) : UInt16 := ((p 1 &&& 0x1F).toUInt16 <<< 8) ||| (p 2).toUInt16

/-- `afc`, the adaptation field control. -/
def afc (p : Mem) : UInt8 := (p 3 >>> 4) &&& 0x03

def hasPayload (p : Mem) : Bool := afc p == 0x01 || afc p == 0x03

def hasAdaptation (p : Mem) : Bool := afc p == 0x02 || afc p == 0x03

/-- `cc`, the continuity counter. -/
def cc (p : Mem) : UInt8 := p 3 &&& 0x0F

/-- `discontinuity`: the indicator of an adaptation field that is not empty. -/
def discontinuity (p : Mem) : Bool := hasAdaptation p && (decide (p 4 > 0) && (p 5 &&& 0x80) != 0)

theorem pid_lt (p : Mem) : (pid p).toNat < tsPidCount := by
  have hmask : (p 1 &&& 0x1F).toNat < 2 ^ 5 := by
    rw [UInt8.toNat_and]
    exact Nat.and_lt_two_pow _ (by decide)
  have hhigh : ((p 1 &&& 0x1F).toUInt16 <<< 8).toNat < 2 ^ 13 := by
    rw [UInt16.toNat_shiftLeft, UInt8.toNat_toUInt16, Nat.shiftLeft_eq]
    exact (Nat.mod_le _ _).trans_lt (Nat.mul_lt_mul_of_pos_right hmask (by decide))
  have hlow : (p 2).toUInt16.toNat < 2 ^ 13 := by
    rw [UInt8.toNat_toUInt16]
    have := (p 2).toNat_lt
    omega
  unfold pid
  rw [UInt16.toNat_or]
  exact Nat.or_lt_two_pow hhigh hlow

/-- The entry of `last_cc_` for the packet. -/
def pidIndex (p : Mem) : Fin tsPidCount := ⟨(pid p).toNat, pid_lt p⟩

/-! ## Counting (lines 81-119) -/

/-- The members of `Tracker` that `parse_packet` reads and writes. -/
structure Counts where
  packets : UInt64 := 0
  syncErrors : UInt64 := 0
  ccErrors : UInt64 := 0
  /-- `last_cc_`; -1 for a PID that was not seen. -/
  lastCc : Fin tsPidCount → ℤ := fun _ => -1

/-- `expected` after the counter `prev`, which is not negative. -/
def expectedCc (payload : Bool) (prev : ℤ) : UInt8 :=
  if payload then UInt8.ofNat (prev + 1).toNat &&& 0x0F else UInt8.ofNat prev.toNat

/-- A break in the continuity: the condition under which `cc_errors_` is counted up. -/
def breaks (prev : ℤ) (p : Mem) : Bool :=
  decide (prev ≥ 0) && !discontinuity p && (cc p != expectedCc (hasPayload p) prev)

/-- `parse_packet` (lines 81-113). -/
def Counts.parsePacket (s : Counts) (p : Mem) : Counts :=
  let s := { s with packets := s.packets + 1 }
  if p 0 ≠ tsSyncByte then { s with syncErrors := s.syncErrors + 1 }
  else if pid p = tsNullPid then s
  else
    let prev := s.lastCc (pidIndex p)
    { s with
      ccErrors := if breaks prev p then s.ccErrors + 1 else s.ccErrors
      lastCc := Function.update s.lastCc (pidIndex p) (cc p).toNat }

/-! ## Feeding (lines 50-78) -/

/-- `class Tracker`. -/
structure Tracker extends Counts where
  carry : Mem
  carryLen : Fin tsPacketSize := ⟨0, tsPacketSize_pos⟩

/-- A fresh tracker; `carry_` is not initialised. -/
def Tracker.create (carry : Mem) : Tracker := { carry }

/-- The bytes carried to the next call. -/
def Tracker.carried (t : Tracker) : Bytes := window t.carry 0 t.carryLen

/-- `for (i = 0; i < count; ++i) dst[off + i] = src[from + i]`. -/
def copyLoop (dst : Mem) (off : ℕ) (src : Mem) (start count : ℕ) : Mem :=
  (List.range count).foldl (fun dst i => Function.update dst (off + i) (src (start + i))) dst

/-- The packets of `data` from `off` on (lines 69-72): the counts, and where the loop ends. -/
def packetLoop (s : Counts) (data : Mem) (len off : ℕ) : Counts × ℕ :=
  if off + tsPacketSize ≤ len then
    packetLoop (s.parsePacket fun i => data (off + i)) data len (off + tsPacketSize)
  else (s, off)
termination_by len - off
decreasing_by
  have := tsPacketSize_pos
  omega

/-- Less than a packet is left where the loop ends. -/
theorem packetLoop_left (s : Counts) (data : Mem) (len off : ℕ) :
    len - (packetLoop s data len off).2 < tsPacketSize := by
  fun_induction packetLoop s data len off with
  | case1 s off h ih => exact ih
  | case2 s off h =>
    have := tsPacketSize_pos
    dsimp only
    omega

/-- Lines 69-77. -/
def Tracker.feedFrom (t : Tracker) (data : Bytes) (off : ℕ) : Tracker :=
  let r := packetLoop t.toCounts (mem data) data.length off
  { toCounts := r.1
    carry := copyLoop t.carry 0 (mem data) r.2 (data.length - r.2)
    carryLen := ⟨data.length - r.2, packetLoop_left _ _ _ _⟩ }

/-- `feed` (lines 53-78). A null pointer comes with no bytes. -/
def Tracker.feed (t : Tracker) (data : Bytes) : Tracker :=
  if data.length = 0 then t
  else if 0 < t.carryLen.val then
    let need := tsPacketSize - t.carryLen
    let take := if need < data.length then need else data.length
    let carry := copyLoop t.carry t.carryLen (mem data) 0 take
    if h : t.carryLen + take < tsPacketSize then { t with carry, carryLen := ⟨t.carryLen + take, h⟩ }
    else
      { toCounts := t.toCounts.parsePacket carry, carry, carryLen := ⟨0, tsPacketSize_pos⟩ : Tracker }.feedFrom data take
  else t.feedFrom data 0

/-- The calls of `feed` on one piece after the other. -/
def Tracker.feedAll (t : Tracker) (chunks : List Bytes) : Tracker := chunks.foldl Tracker.feed t

/-! ## The copying loops -/

theorem copyLoop_succ (dst : Mem) (off : ℕ) (src : Mem) (start count : ℕ) :
    copyLoop dst off src start (count + 1) =
      Function.update (copyLoop dst off src start count) (off + count) (src (start + count)) := by
  rw [copyLoop, List.range_succ, List.foldl_append]
  rfl

theorem copyLoop_apply (dst : Mem) (off : ℕ) (src : Mem) (start count j : ℕ) :
    copyLoop dst off src start count j =
      if off ≤ j ∧ j < off + count then src (start + (j - off)) else dst j := by
  induction count with
  | zero => exact (if_neg (by omega)).symm
  | succ count ih =>
    rw [copyLoop_succ]
    by_cases hj : j = off + count
    · rw [hj, Function.update_self, if_pos (by omega), Nat.add_sub_cancel_left]
    · rw [Function.update_of_ne hj, ih]
      by_cases hc : off ≤ j ∧ j < off + count
      · rw [if_pos hc, if_pos (by omega)]
      · rw [if_neg hc, if_neg (by omega)]

/-- What stands before the bytes that were copied, and these. -/
theorem window_copyLoop (dst : Mem) (off : ℕ) (src : Mem) (start count : ℕ) :
    window (copyLoop dst off src start count) 0 (off + count) = window dst 0 off ++ window src start count := by
  rw [window_add]
  refine congrArg₂ _ (window_congr fun i hi => ?_) (List.map_congr_left fun i hi => ?_)
  · rw [copyLoop_apply, if_neg (by omega)]
  · have hlt := List.mem_range.mp hi
    rw [copyLoop_apply, if_pos (by omega)]
    exact congrArg src (by omega)

/-! ## The packets of a stream -/

/-- The counts after the whole packets of a stream. -/
def Counts.parseAll (s : Counts) (stream : Bytes) : Counts :=
  (blocks tsPacketSize stream).foldl (fun s b => s.parsePacket (mem b)) s

theorem Counts.parsePacket_congr (s : Counts) {p q : Mem} (h : ∀ i, i < tsPacketSize → p i = q i) :
    s.parsePacket p = s.parsePacket q := by
  have hpid : pid p = pid q := by
    rw [pid, pid, h 1 (by decide), h 2 (by decide)]
  have hindex : pidIndex p = pidIndex q := Fin.ext (congrArg UInt16.toNat hpid)
  have hafc : afc p = afc q := by
    rw [afc, afc, h 3 (by decide)]
  have hcc : cc p = cc q := by
    rw [cc, cc, h 3 (by decide)]
  have hbreaks : ∀ prev, breaks prev p = breaks prev q := by
    intro prev
    simp only [breaks, discontinuity, hasAdaptation, hasPayload, hafc, hcc, h 4 (by decide), h 5 (by decide)]
  unfold Counts.parsePacket
  simp only [h 0 (by decide), hpid, hindex, hcc, hbreaks]

theorem Counts.parseAll_of_lt (s : Counts) {stream : Bytes} (h : stream.length < tsPacketSize) :
    s.parseAll stream = s := by
  rw [Counts.parseAll, blocks_of_lt h]
  rfl

theorem Counts.parseAll_block (s : Counts) {b : Bytes} (hb : b.length = tsPacketSize) (stream : Bytes) :
    s.parseAll (b ++ stream) = (s.parsePacket (mem b)).parseAll stream := by
  rw [Counts.parseAll, blocks_block tsPacketSize_pos hb]
  rfl

/-- What is left of a stream joins what comes after it. -/
theorem Counts.parseAll_append (s : Counts) (l m : Bytes) :
    s.parseAll (l ++ m) = (s.parseAll l).parseAll (residue tsPacketSize l ++ m) := by
  rw [Counts.parseAll, blocks_append tsPacketSize_pos, List.foldl_append]
  rfl

/-- The loop parses the packets of `data` from `off` on and ends where the residue begins. -/
theorem packetLoop_spec (s : Counts) (data : Bytes) (off : ℕ) (hoff : off ≤ data.length) :
    let r := packetLoop s (mem data) data.length off
    r.1 = s.parseAll (data.drop off) ∧ data.drop r.2 = residue tsPacketSize (data.drop off) := by
  fun_induction packetLoop s (mem data) data.length off with
  | case1 s off h ih =>
    obtain ⟨hcounts, hrest⟩ := ih h
    have hlen : ((data.drop off).take tsPacketSize).length = tsPacketSize := by
      rw [List.length_take, List.length_drop]
      omega
    have hsplit : data.drop off = (data.drop off).take tsPacketSize ++ data.drop (off + tsPacketSize) := by
      rw [← List.drop_drop, List.take_append_drop]
    have hpacket : (s.parsePacket fun i => mem data (off + i)) =
        s.parsePacket (mem ((data.drop off).take tsPacketSize)) := by
      refine s.parsePacket_congr fun i hi => ?_
      have hmin : min tsPacketSize (data.length - off) = tsPacketSize := by omega
      rw [← window_mem_min, hmin, mem_window hi]
    rw [hsplit, Counts.parseAll_block s hlen, residue_block tsPacketSize_pos hlen, ← hpacket]
    exact ⟨hcounts, hrest⟩
  | case2 s off h =>
    have hlt : (data.drop off).length < tsPacketSize := by
      rw [List.length_drop]
      omega
    exact ⟨(s.parseAll_of_lt hlt).symm, (residue_of_lt hlt).symm⟩

/-! ## What a call does -/

theorem Tracker.length_carried (t : Tracker) : t.carried.length = t.carryLen := length_window _ _ _

theorem Tracker.feedFrom_spec (t : Tracker) (data : Bytes) (off : ℕ) (hoff : off ≤ data.length) :
    (t.feedFrom data off).toCounts = t.toCounts.parseAll (data.drop off) ∧
      (t.feedFrom data off).carried = residue tsPacketSize (data.drop off) := by
  obtain ⟨hcounts, hrest⟩ := packetLoop_spec t.toCounts data off hoff
  refine ⟨hcounts, ?_⟩
  have hwindow := window_copyLoop t.carry 0 (mem data)
    (packetLoop t.toCounts (mem data) data.length off).2
    (data.length - (packetLoop t.toCounts (mem data) data.length off).2)
  rw [Nat.zero_add, window_mem_drop, hrest] at hwindow
  exact hwindow

/-- The first part of a call (lines 59-62) fills the carry buffer up to a packet at most. -/
theorem Tracker.window_fill (t : Tracker) (data : Bytes) :
    window (copyLoop t.carry t.carryLen (mem data) 0 (min (tsPacketSize - t.carryLen) data.length)) 0
        (t.carryLen + min (tsPacketSize - t.carryLen) data.length) =
      t.carried ++ data.take (tsPacketSize - t.carryLen) := by
  have htake := window_mem_min data 0 (tsPacketSize - t.carryLen)
  rw [Nat.sub_zero, List.drop_zero] at htake
  rw [window_copyLoop, htake]
  rfl

/-- **A call in terms of the stream.** The carried bytes and the new ones are parsed in
    packets, and what does not fill a packet is carried. -/
theorem Tracker.feed_spec (t : Tracker) (data : Bytes) :
    (t.feed data).toCounts = t.toCounts.parseAll (t.carried ++ data) ∧
      (t.feed data).carried = residue tsPacketSize (t.carried ++ data) := by
  have hlen := t.length_carried
  have hlt := t.carryLen.isLt
  have hmin : (if tsPacketSize - t.carryLen < data.length then tsPacketSize - t.carryLen.val else data.length) =
      min (tsPacketSize - t.carryLen) data.length := by
    split_ifs <;> omega
  have hfill := t.window_fill data
  unfold Tracker.feed
  dsimp only
  rw [hmin]
  split_ifs with hempty hcarry hshort
  · rw [List.length_eq_zero_iff.mp hempty, List.append_nil, Counts.parseAll_of_lt _ (hlen ▸ hlt),
      residue_of_lt (hlen ▸ hlt)]
    exact ⟨rfl, rfl⟩
  · -- all bytes go into the carry buffer
    rw [List.take_of_length_le (by omega)] at hfill
    have hstream : (t.carried ++ data).length < tsPacketSize := by
      rw [List.length_append]
      omega
    exact ⟨(Counts.parseAll_of_lt _ hstream).symm, hfill.trans (residue_of_lt hstream).symm⟩
  · -- the carry buffer is full and is parsed first
    have hneed : min (tsPacketSize - t.carryLen) data.length = tsPacketSize - t.carryLen := by omega
    have hsum : t.carryLen + (tsPacketSize - t.carryLen) = tsPacketSize := by omega
    rw [hneed] at hfill ⊢
    rw [hsum] at hfill
    have hblock : (t.carried ++ data.take (tsPacketSize - t.carryLen)).length = tsPacketSize := by
      rw [← hfill, length_window]
    have hsplit : t.carried ++ data =
        (t.carried ++ data.take (tsPacketSize - t.carryLen)) ++ data.drop (tsPacketSize - t.carryLen) := by
      rw [List.append_assoc, List.take_append_drop]
    rw [hsplit, Counts.parseAll_block _ hblock, residue_block tsPacketSize_pos hblock]
    refine And.imp_left (fun h => h.trans ?_) (Tracker.feedFrom_spec _ data _ (by omega))
    refine congrArg (Counts.parseAll · _) (Counts.parsePacket_congr _ fun i hi => ?_)
    rw [← hfill, mem_window hi, Nat.zero_add]
  · have hnone : t.carried = [] := List.length_eq_zero_iff.mp (by omega)
    rw [hnone, List.nil_append]
    exact t.feedFrom_spec data 0 (Nat.zero_le _)

/-! ## Whole streams -/

theorem Tracker.feedAll_spec (t : Tracker) (chunks : List Bytes) :
    (t.feedAll chunks).toCounts = t.toCounts.parseAll (t.carried ++ chunks.flatten) ∧
      (t.feedAll chunks).carried = residue tsPacketSize (t.carried ++ chunks.flatten) := by
  induction chunks generalizing t with
  | nil =>
    have hlt : t.carried.length < tsPacketSize := t.length_carried ▸ t.carryLen.isLt
    rw [List.flatten_nil, List.append_nil, Counts.parseAll_of_lt _ hlt, residue_of_lt hlt]
    exact ⟨rfl, rfl⟩
  | cons data chunks ih =>
    obtain ⟨hcounts, hcarried⟩ := t.feed_spec data
    have hrest := ih (t.feed data)
    rw [hcounts, hcarried, ← Counts.parseAll_append, ← residue_append tsPacketSize_pos, List.append_assoc] at hrest
    exact hrest

theorem Tracker.carried_create (carry : Mem) : (Tracker.create carry).carried = [] := rfl

/-- A fresh tracker after a stream, however it was cut. -/
theorem Tracker.feedAll_create (carry : Mem) (chunks : List Bytes) :
    ((Tracker.create carry).feedAll chunks).toCounts = ({} : Counts).parseAll chunks.flatten ∧
      ((Tracker.create carry).feedAll chunks).carried = residue tsPacketSize chunks.flatten := by
  have h := (Tracker.create carry).feedAll_spec chunks
  rwa [Tracker.carried_create, List.nil_append] at h

theorem Counts.parsePacket_packets (s : Counts) (p : Mem) : (s.parsePacket p).packets = s.packets + 1 := by
  unfold Counts.parsePacket
  dsimp only
  split_ifs <;> rfl

/-- Every packet is counted. -/
theorem Counts.parseAll_packets (s : Counts) (stream : Bytes) :
    (s.parseAll stream).packets = s.packets + UInt64.ofNat (stream.length / tsPacketSize) := by
  unfold Counts.parseAll
  rw [← length_blocks]
  induction blocks tsPacketSize stream generalizing s with
  | nil => exact (UInt64.add_zero _).symm
  | cons b bs ih =>
    rw [List.foldl_cons, ih, Counts.parsePacket_packets, List.length_cons, Nat.add_comm bs.length,
      UInt64.ofNat_add, UInt64.add_assoc]
    rfl

/-- **Chunking makes no difference.** Two fresh trackers that are fed the same stream in
    different pieces end with the same counts, the same counters of every PID and the
    same carried bytes, and have counted a packet for every 188 bytes. -/
theorem chunking_irrelevant (carry carry' : Mem) {chunks chunks' : List Bytes}
    (h : chunks.flatten = chunks'.flatten) :
    let t := (Tracker.create carry).feedAll chunks
    let t' := (Tracker.create carry').feedAll chunks'
    t.toCounts = t'.toCounts ∧ t.carried = t'.carried ∧
      t.packets = UInt64.ofNat (chunks.flatten.length / 188) ∧
      (chunks.flatten.length / 188 < 2 ^ 64 → t.packets.toNat = chunks.flatten.length / 188) := by
  intro t t'
  obtain ⟨hcounts, hcarried⟩ := Tracker.feedAll_create carry chunks
  obtain ⟨hcounts', hcarried'⟩ := Tracker.feedAll_create carry' chunks'
  have hpackets : t.packets = UInt64.ofNat (chunks.flatten.length / 188) := by
    rw [show t.packets = _ from congrArg Counts.packets hcounts, Counts.parseAll_packets]
    exact UInt64.zero_add _
  refine ⟨?_, ?_, hpackets, fun hlt => ?_⟩
  · rw [hcounts, hcounts', h]
  · rw [hcarried, hcarried', h]
  · rw [hpackets, UInt64.toNat_ofNat', Nat.mod_eq_of_lt hlt]

/-- 400 bytes in pieces. -/
def pieces : List Bytes := [List.replicate 100 0x47, [], List.replicate 88 0x47, List.replicate 212 0x47]

theorem flatten_pieces : pieces.flatten = List.replicate 400 0x47 := by
  simp only [pieces, List.flatten_cons, List.flatten_nil, List.nil_append, List.append_nil,
    List.replicate_append_replicate]

/-- The pieces are two packets and 24 bytes, as the whole is. -/
theorem chunking_irrelevant_pieces :
    ((Tracker.create fun _ => 0).feedAll pieces).toCounts =
        ((Tracker.create fun _ => 0xFF).feedAll [List.replicate 400 0x47]).toCounts ∧
      ((Tracker.create fun _ => 0).feedAll pieces).packets.toNat = 2 := by
  have hwhole : pieces.flatten = [List.replicate 400 0x47].flatten := by
    rw [flatten_pieces, List.flatten_singleton]
  have hpackets : pieces.flatten.length / 188 = 2 := by
    rw [flatten_pieces, List.length_replicate]
  obtain ⟨hcounts, -, -, hexact⟩ := chunking_irrelevant (fun _ => 0) (fun _ => 0xFF) hwhole
  rw [hpackets] at hexact
  exact ⟨hcounts, hexact (by norm_num)⟩

end Srtla.Sink
