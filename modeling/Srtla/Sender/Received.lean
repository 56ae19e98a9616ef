import Srtla.Lib.Agree
import Srtla.Sender.NakList

/-!
# The sender and the bytes it did not receive (`src/sender.cpp:329-433`)

`handle_srtla_data` reads at offsets that it does not compare with the number
`n` of bytes received: word 4 of an SRT ACK, the 256 id bytes of a REG2, and in
a NAK the word after the start of a range, also when the start is the last word
of the datagram. On such a datagram the result depends on what an earlier one
left in the buffer. The last case is harmless only if the bytes received of the
end of the range already make the range empty.

Results:
* `cutRange`: the range of a NAK whose end was not received.
* `nakIds_congr`, `nakIds_cut`: what the parser makes of a NAK without and with
  such a range.
* `acts_on_received_iff`: a datagram has the same effect in all buffers iff it
  is `Complete`.
* `stale_ack`: two results for one SRT ACK of 16 bytes.
-/

namespace Srtla.Sender

open Lib

/-! ## NAKs that end in the start of a range -/

/-- The start of the range that the loop over the words of a NAK reaches with the
    end of the range not, or not wholly, among the `n` bytes received. -/
def cutRange (buf : Mem) (n : ℤ) : (k i : ℕ) → Option ℕ
  | 0, _ => none
  | k + 1, i =>
    if (i : ℤ) < n / 4 then
      let id := be32 buf (4 * i)
      if id &&& (1 <<< 31) ≠ 0 then
        if (i : ℤ) + 1 < n / 4 then
          -- a range that does not end keeps the loop from going on
          if be32 buf (4 * (i + 1)) = 2 ^ 32 - 1 then none else cutRange buf n k (i + 2)
        else some (id &&& 0x7FFFFFFF)
      else cutRange buf n k (i + 1)
    else none

/-- The largest end that the bytes received leave for such a range. -/
def largestEnd (buf : Mem) (n : ℤ) : ℕ := be32 (fill n 0xFF buf) (4 * (n / 4).toNat)

variable {m m' : Mem} {n : ℤ} {k i id : ℕ}

/-- The parser reads only what was received, or an end that does not matter. -/
theorem nakIds_congr (fuel : ℕ) (h : Agree n m m')
    (hcut : ∀ id, cutRange m n k i = some id → largestEnd m n < id) :
    nakIds fuel m n k i = nakIds fuel m' n k i := by
  induction k generalizing i with
  | zero => rfl
  | succ k ih =>
    unfold cutRange at hcut
    unfold nakIds
    dsimp only at hcut ⊢
    by_cases hi : (i : ℤ) < n / 4
    · rw [if_pos hi] at hcut
      rw [if_pos hi, if_pos hi, ← h.be32 (4 * i) (by push_cast; omega)]
      by_cases hbit : be32 m (4 * i) &&& (1 <<< 31) ≠ 0
      · rw [if_pos hbit] at hcut
        rw [if_pos hbit, if_pos hbit]
        by_cases hnext : (i : ℤ) + 1 < n / 4
        · rw [if_pos hnext] at hcut
          rw [← h.be32 (4 * (i + 1)) (by push_cast; omega)]
          by_cases hnever : be32 m (4 * (i + 1)) = 2 ^ 32 - 1
          · rw [hnever, nakRange_never fuel (lt_of_le_of_lt Nat.and_le_right (by decide)),
              Option.bind_none, Option.bind_none]
          · rw [if_neg hnever] at hcut
            rw [ih hcut]
        · rw [if_neg hnext] at hcut
          -- both ends are too small
          have hlt := hcut _ rfl
          have hword : 4 * (n / 4).toNat = 4 * (i + 1) := by omega
          rw [largestEnd, hword] at hlt
          rw [nakRange_of_lt fuel (lt_of_le_of_lt (Agree.be32_le_fill (fun _ _ => rfl) _) hlt)
            (lt_of_le_of_lt (h.be32_le_fill _) hlt), nakIds_past k (by push_cast; omega),
            nakIds_past k (by push_cast; omega)]
      · rw [if_neg hbit] at hcut
        rw [if_neg hbit, if_neg hbit, ih hcut]
    · rw [if_neg hi, if_neg hi]

/-- With a range that is cut, what the parser gives is the numbers before the
    range, and those of the range with the end that stands in the buffer. -/
theorem nakIds_cut (h : cutRange m n k i = some id) :
    ∃ fuel₀ before, ∀ m', Agree n m m' → ∀ fuel, fuel₀ ≤ fuel →
      nakIds fuel m' n k i =
        (nakRange fuel id (be32 m' (4 * (n / 4).toNat))).map fun range => before ++ range := by
  induction k generalizing i with
  | zero => cases h
  | succ k ih =>
    unfold cutRange at h
    dsimp only at h
    split_ifs at h with hi hbit hnext hnever
    · -- a range that was received wholly
      obtain ⟨fuel₀, before, ih⟩ := ih h
      have hend : be32 m (4 * (i + 1)) < 2 ^ 32 - 1 := by
        have := be32_lt m (4 * (i + 1))
        omega
      obtain ⟨fuel₁, first, hfirst⟩ := nakRange_returns (be32 m (4 * i) &&& 0x7FFFFFFF) _ hend
      refine ⟨max fuel₀ fuel₁, first ++ before, fun m' hm' fuel hfuel => ?_⟩
      rw [nakIds, if_pos hi]
      dsimp only
      rw [← hm'.be32 (4 * i) (by push_cast; omega), if_pos hbit,
        ← hm'.be32 (4 * (i + 1)) (by push_cast; omega),
        hfirst fuel ((le_max_right _ _).trans hfuel), Option.bind_some,
        ih m' hm' fuel ((le_max_left _ _).trans hfuel), Option.map_map]
      congr 1
      funext range
      exact (List.append_assoc _ _ _).symm
    · -- the range that is cut
      obtain rfl := Option.some.inj h
      refine ⟨0, [], fun m' hm' fuel _ => ?_⟩
      have hword : 4 * (n / 4).toNat = 4 * (i + 1) := by omega
      rw [nakIds, if_pos hi]
      dsimp only
      rw [← hm'.be32 (4 * i) (by push_cast; omega), if_pos hbit,
        nakIds_past k (by push_cast; omega), hword]
      cases nakRange fuel (be32 m (4 * i) &&& 0x7FFFFFFF) (be32 m' (4 * (i + 1))) with
      | none => rfl
      | some range => exact congrArg some (List.append_nil range)
    · -- a single number
      obtain ⟨fuel₀, before, ih⟩ := ih h
      refine ⟨fuel₀, toInt32 (be32 m (4 * i)) :: before, fun m' hm' fuel hfuel => ?_⟩
      rw [nakIds, if_pos hi]
      dsimp only
      rw [← hm'.be32 (4 * i) (by push_cast; omega), if_neg hbit, ih m' hm' fuel hfuel,
        Option.map_map]
      rfl

/-! ## Datagrams that are complete -/

/-- Handling a datagram of `n` bytes that arrives on the link `ref`, in the
    buffer `m`, returns with the result `r`. -/
def Handles (s : State) (ref : ℕ) (m : Mem) (n ts : ℤ) (ret : ℕ → ℤ) (r : State × List Effect) : Prop :=
  ∃ fuel, step s (.srtlaData ref m n ts ret fuel) = some r

/-- All that the handler makes use of was received. -/
structure Complete (m : Mem) (n : ℤ) : Prop where
  ack : getSrtType m n = srtTypeAck → 20 ≤ n
  reg2 : getSrtType m n = srtlaTypeReg2 → 258 ≤ n
  nak : getSrtType m n = srtTypeNak →
    ∀ id, cutRange m n (n / 4).toNat 4 = some id → largestEnd m n < id

variable {s : State} {c : Conn} {ts : ℤ} {ret : ℕ → ℤ} {fuel ref : ℕ} {r : State × List Effect}

theorem getSrtType_congr (h : Agree n m m') : getSrtType m n = getSrtType m' n := by
  unfold getSrtType
  split_ifs
  · rfl
  · exact h.be16 0 (by push_cast; omega)

theorem srtlaAckIds_congr (h : Agree n m m') : srtlaAckIds m n = srtlaAckIds m' n := by
  apply List.map_congr_left
  intro i hi
  obtain ⟨_, hlt⟩ := List.mem_range'_1.mp hi
  rw [h.be32 _ (by push_cast; omega)]

theorem dispatch_congr (h : Agree n m m') (hc : Complete m n) (hn : 0 < n) :
    dispatch s m n fuel = dispatch s m' n fuel := by
  have hwindow : window m 0 n.toNat = window m' 0 n.toNat := h.window (by push_cast; omega)
  unfold dispatch
  rw [← getSrtType_congr h, ← hwindow, ← srtlaAckIds_congr h]
  dsimp only
  by_cases hack : getSrtType m n = srtTypeAck
  · have h20 := hc.ack hack
    rw [if_pos hack, if_pos hack, h.be32 16 (by push_cast; omega)]
  rw [if_neg hack, if_neg hack]
  by_cases hnak : getSrtType m n = srtTypeNak
  · rw [if_pos hnak, if_pos hnak, nakIds_congr fuel h (hc.nak hnak)]
  rw [if_neg hnak, if_neg hnak]

/-- **A complete datagram has one effect, whatever stands behind it.** -/
theorem handleSrtlaData_congr (h : Agree n m m') (hc : Complete m n) :
    handleSrtlaData s c m n ts ret fuel = handleSrtlaData s c m' n ts ret fuel := by
  unfold handleSrtlaData
  rw [← getSrtType_congr h]
  by_cases hn : n ≤ 0
  · rw [if_pos hn, if_pos hn]
  rw [if_neg hn, if_neg hn, dispatch_congr h hc (by omega)]
  by_cases hreg2 : getSrtType m n = srtlaTypeReg2
  · have h258 := hc.reg2 hreg2
    have hid : onReg2 s c m ts ret = onReg2 s c m' ts ret := by
      unfold onReg2
      rw [h.readBlock (by push_cast; omega), h.readBlock (by push_cast; omega)]
    rw [hid]
  · rw [if_neg hreg2, if_neg hreg2]

theorem step_congr (h : Agree n m m') (hc : Complete m n) :
    step s (.srtlaData ref m n ts ret fuel) = step s (.srtlaData ref m' n ts ret fuel) := by
  unfold step
  split_ifs
  · rfl
  · dsimp only
    cases Keyed.get Conn.ref ref s.conns with
    | none => rfl
    | some c => simp only [handleSrtlaData_congr h hc]

/-! ## Datagrams that are not -/

/-- Two buffers with the `n` bytes received of `m` in which the datagram has
    different effects in some state. -/
def Distinguished (m : Mem) (n : ℤ) : Prop :=
  ∃ m₁ m₂, Agree n m m₁ ∧ Agree n m m₂ ∧
    ∃ s ref ts ret r, Handles s ref m₁ n ts ret r ∧ ¬ Handles s ref m₂ n ts ret r

/-- A link with the number `x` in every slot of its log. -/
def fullLink (x : ℤ) (ref : ℕ) : Conn :=
  { Conn.create ref (zeroBlock 4) with fd := 4, pktLog := Vector.replicate pktLogSz x }

/-- A sender with `count` such links. -/
def fullState (count : ℕ) (x : ℤ) : State :=
  { State.zero with conns := (List.range count).map (fullLink x), nextRef := count }

theorem distinct_fullState (count : ℕ) (x : ℤ) : (fullState count x).Distinct := by
  constructor
  · show (((List.range count).map (fullLink x)).map Conn.ref).Nodup
    rw [List.map_map]
    exact (List.map_id _).symm ▸ List.nodup_range
  · intro c hc
    obtain ⟨i, hi, rfl⟩ := List.mem_map.mp hc
    exact List.mem_range.mp hi

theorem get_fullState (count : ℕ) (x : ℤ) :
    Keyed.get Conn.ref 0 (fullState (count + 1) x).conns = some (fullLink x 0) := by
  rw [Keyed.get_eq_some_iff (distinct_fullState _ x).refs]
  exact ⟨List.mem_map_of_mem (List.mem_range.mpr (Nat.succ_pos count)), rfl⟩

theorem fullLink_get (x : ℤ) (ref : ℕ) (j : Fin pktLogSz) : (fullLink x ref).pktLog.get j = x := by
  show (Vector.replicate pktLogSz x)[j.val] = x
  rw [Vector.getElem_replicate]

theorem fullLink_fd (x : ℤ) (ref : ℕ) : 0 ≤ (fullLink x ref).fd := by
  show (0 : ℤ) ≤ 4
  decide

/-- A type other than 0 has been received. -/
theorem pos_of_getSrtType {type : ℕ} (h : getSrtType m n = type) (h0 : type ≠ 0) : 2 ≤ n := by
  by_contra hn
  rw [getSrtType, if_pos (by omega)] at h
  exact h0 h.symm

/-- A word that ends in a zero byte, and the next one, as `int32_t`. -/
theorem toInt32_succ {w : ℕ} (h : w % 256 = 0) : toInt32 (w + 1) = toInt32 w + 1 ∧ toInt32 w ≠ -1 := by
  unfold toInt32
  constructor
  · split_ifs <;> push_cast <;> omega
  · split_ifs <;> omega

/-- Slot 1 of a log after an SRT ACK, on a sender with one link. -/
theorem step_ack (hd : s.Distinct) (hconns : s.conns = [c]) (hidx : c.pktIdx = 0)
    (htype : getSrtType m n = srtTypeAck) (h : step s (.srtlaData c.ref m n ts ret fuel) = some r) :
    r.1.conns.map (fun d => d.pktLog.get 1) =
      [if c.pktLog.get 1 < toInt32 (be32 m 16) then -1 else c.pktLog.get 1] := by
  have hpos := pos_of_getSrtType htype (by decide)
  have hcalls : applyCalls (s.calls (.srtlaData c.ref m n ts ret fuel)) [c] =
      [Conn.registerSrtAck { c with lastRcvd := ts } (toInt32 (be32 m 16))] := by
    show applyCalls (datagramCalls c.ref m n ts fuel) _ = _
    rw [datagramCalls, frameCalls, htype, if_neg (by rw [not_or]; exact ⟨by omega, by decide⟩),
      if_pos rfl]
    show registerSrtAck _ [if c.ref = c.ref then { c with lastRcvd := ts } else c] = _
    rw [if_pos rfl]
    rfl
  have hne : (1 : Fin pktLogSz) ≠ c.pktIdx := by
    rw [hidx]
    decide
  rw [step_calls hd h, hconns, hcalls, List.map_singleton, Conn.registerSrtAck_get]
  exact congrArg (fun v => [v]) (if_congr (and_iff_right hne) rfl rfl)

/-- Word 4 of a short SRT ACK may be a number in a log or the next one. -/
theorem distinguished_ack (htype : getSrtType m n = srtTypeAck) (hn : n < 20) : Distinguished m n := by
  have h₁ : Agree n m (fill n 0 m) := agree_fill n 0 m
  have h₂ : Agree n m (Function.update (fill n 0 m) 19 1) :=
    h₁.trans (agree_update _ (by push_cast; omega) 1)
  have hlast : fill n 0 m (16 + 3) = 0 := if_neg (by push_cast; omega)
  have hnext : be32 (Function.update (fill n 0 m) 19 1) 16 = be32 (fill n 0 m) 16 + 1 := by
    have h := be32_update_last (fill n 0 m) 16 1
    rw [hlast] at h
    simpa using h
  have hmod : be32 (fill n 0 m) 16 % 256 = 0 := by
    rw [be32_mod, hlast]
    rfl
  obtain ⟨hsucc, hmark⟩ := toInt32_succ hmod
  rw [← hnext] at hsucc
  have htype₁ := (getSrtType_congr h₁).symm.trans htype
  have htype₂ := (getSrtType_congr h₂).symm.trans htype
  generalize hm₁ : fill n 0 m = m₁ at *
  generalize hm₂ : Function.update m₁ 19 1 = m₂ at *
  obtain ⟨r, hr, _⟩ := step_datagram (s := fullState 1 (toInt32 (be32 m₁ 16))) rfl (get_fullState 0 _)
    (fullLink_fd _ 0) m₁ n 0 (fun _ => 0) 0
    fun hnak => absurd (htype₁.symm.trans hnak) (by decide)
  refine ⟨m₁, m₂, h₁, h₂, _, 0, 0, fun _ => 0, r, ⟨0, hr⟩, ?_⟩
  rintro ⟨fuel, hr'⟩
  have hd := distinct_fullState 1 (toInt32 (be32 m₁ 16))
  have hsame := (step_ack (c := fullLink _ 0) hd rfl rfl htype₁ hr).symm.trans
    (step_ack (c := fullLink _ 0) hd rfl rfl htype₂ hr')
  rw [fullLink_get, if_neg (lt_irrefl _), if_pos (by omega)] at hsame
  exact hmark (List.cons.inj hsame).1

/-- A sender that waits for the group id, of which it has the first half. -/
def waitingState (id : SrtlaId) : State :=
  { fullState 1 0 with pendingReg2Conn := some 0, srtlaId := id }

theorem step_reg2 {id : SrtlaId} (htype : getSrtType m n = srtlaTypeReg2)
    (hhalf : readBlock m 2 128 = id.firstHalf)
    (h : step (waitingState id) (.srtlaData 0 m n ts ret fuel) = some r) :
    r.1.srtlaId = readBlock m 2 256 := by
  have hpos := pos_of_getSrtType htype (by decide)
  have hh := step_srtlaData (s := waitingState id) (get_fullState 0 0) h
  rw [handleSrtlaData, htype, if_neg (by omega), if_neg (by decide), if_pos rfl] at hh
  rw [← Option.some.inj hh]
  rcases (onReg2_cases (waitingState id) (fullLink 0 0) m ts ret).2 with ⟨_, hnot⟩ | ⟨_, _, hid, _⟩
  · exact absurd ⟨rfl, hhalf⟩ hnot
  · exact hid

/-- A short REG2 has a group id whose last byte may be any. -/
theorem distinguished_reg2 (htype : getSrtType m n = srtlaTypeReg2) (hn : n < 258) :
    Distinguished m n := by
  have h₁ : Agree n m (fill n 0 m) := agree_fill n 0 m
  have h₂ : Agree n m (Function.update (fill n 0 m) 257 1) :=
    h₁.trans (agree_update _ (by push_cast; omega) 1)
  have hlast : fill n 0 m 257 = 0 := if_neg (by push_cast; omega)
  have htype₁ := (getSrtType_congr h₁).symm.trans htype
  have htype₂ := (getSrtType_congr h₂).symm.trans htype
  generalize fill n 0 m = m₁ at *
  have hhalf : readBlock (Function.update m₁ 257 1) 2 128 = readBlock m₁ 2 128 :=
    Block.ext (window_congr fun i hi => Function.update_of_ne (by omega) _ _)
  have hhalf₁ := (SrtlaId.firstHalf_readBlock m₁ 2).symm
  obtain ⟨r, hr, _⟩ := step_datagram (s := waitingState (readBlock m₁ 2 256)) rfl
    (get_fullState 0 0) (fullLink_fd 0 0) m₁ n 0 (fun _ => 0) 0
    fun hnak => absurd (htype₁.symm.trans hnak) (by decide)
  refine ⟨m₁, _, h₁, h₂, _, 0, 0, fun _ => 0, r, ⟨0, hr⟩, ?_⟩
  rintro ⟨fuel, hr'⟩
  have hsame := (step_reg2 htype₁ hhalf₁ hr).symm.trans (step_reg2 htype₂ (hhalf.trans hhalf₁) hr')
  have hbyte := congrArg (fun b : Block 256 => mem b.bytes 255) hsame
  simp only [readBlock, mem_window (show 255 < 256 by decide), Function.update_self, hlast] at hbyte
  exact absurd hbyte (by decide)

/-! ### NAKs

The buffers in question give lists of numbers of which one is a proper prefix of
the other. A sender with enough copies of the last number in its logs tells the
lists apart by the copies left. -/

/-- How often the logs of the links have the number `x` in sight. -/
def carried (x : ℤ) (conns : List Conn) : ℕ := (conns.map fun c => (c.logged fun q => q = x).card).sum

theorem carried_cons (x : ℤ) (c : Conn) (conns : List Conn) :
    carried x (c :: conns) = (c.logged fun q => q = x).card + carried x conns := rfl

theorem card_logged_nakAt {x packet : ℤ} {c : Conn} {j : Fin pktLogSz} (hx : x ≠ -1)
    (hfind : c.findPkt packet = some j) :
    ((c.nakAt j).logged fun q => q = x).card =
      (c.logged fun q => q = x).card - if packet = x then 1 else 0 := by
  have heq : ((c.nakAt j).logged fun q => q = x) = (c.clearSlot j).logged fun q => q = x :=
    Conn.logged_congr rfl rfl
  rw [heq]
  split_ifs with hpacket
  · have := Conn.card_logged_clearSlot (P := fun q => q = x) hx.symm hfind hpacket
    omega
  · rw [Conn.logged_clearSlot hx.symm, Finset.erase_eq_of_notMem]
    · rfl
    · intro hmem
      exact hpacket ((Conn.findPkt_eq_some hfind).2.symm.trans (Conn.mem_logged.mp hmem).2)

theorem card_logged_of_not_found {packet : ℤ} {c : Conn} (h : c.findPkt packet = none) :
    (c.logged fun q => q = packet).card = 0 := by
  rw [Finset.card_eq_zero, Finset.eq_empty_iff_forall_notMem]
  intro j hj
  have hslot := Conn.mem_logged.mp hj
  have hsome := Conn.findPkt_isSome_iff.mpr ⟨j, hslot⟩
  rw [h] at hsome
  cases hsome

/-- A NAK takes one copy of its number from the logs, if there is one. -/
theorem carried_registerNak {x packet : ℤ} (hx : x ≠ -1) (conns : List Conn) :
    carried x (registerNak packet conns) = carried x conns - if packet = x then 1 else 0 := by
  induction conns with
  | nil => exact (Nat.zero_sub _).symm
  | cons c conns ih =>
    unfold registerNak
    cases hfind : c.findPkt packet with
    | some j =>
      have hpos := Conn.logged_pos_of_findPkt hfind
      dsimp only
      rw [carried_cons, carried_cons, card_logged_nakAt hx hfind]
      split_ifs with hpacket
      · subst hpacket
        omega
      · omega
    | none =>
      dsimp only
      rw [carried_cons, carried_cons, ih]
      split_ifs with hpacket
      · subst hpacket
        have := card_logged_of_not_found hfind
        omega
      · omega

theorem carried_registerNaks {x : ℤ} (hx : x ≠ -1) (ids : List ℤ) (conns : List Conn) :
    carried x (applyCalls (ids.map .registerNak) conns) = carried x conns - ids.count x := by
  induction ids generalizing conns with
  | nil => rfl
  | cons packet ids ih =>
    show carried x (applyCalls (ids.map .registerNak) (registerNak packet conns)) = _
    rw [ih, carried_registerNak hx, List.count_cons]
    simp only [beq_iff_eq]
    omega

theorem carried_heard (x : ℤ) (ref : ℕ) (ts : ℤ) (conns : List Conn) :
    carried x ((LinkCall.link ref (.heard ts)).apply conns) = carried x conns := by
  show carried x (conns.map _) = _
  rw [carried, List.map_map]
  refine congrArg List.sum (List.map_congr_left fun c _ => ?_)
  rw [Function.comp_apply]
  split_ifs
  · exact congrArg Finset.card (Conn.logged_congr rfl rfl)
  · rfl

theorem le_carried_fullState (count : ℕ) (x : ℤ) : count ≤ carried x (fullState count x).conns := by
  have hone : ∀ k ∈ (fullState count x).conns.map fun c => (c.logged fun q => q = x).card, 1 ≤ k := by
    intro k hk
    obtain ⟨c, hc, rfl⟩ := List.mem_map.mp hk
    obtain ⟨ref, _, rfl⟩ := List.mem_map.mp hc
    have hidx : (1 : Fin pktLogSz) ≠ 0 := by decide
    exact Finset.card_pos.mpr ⟨1, Conn.mem_logged.mpr ⟨hidx, fullLink_get x ref 1⟩⟩
  have hlen := List.length_le_sum_of_one_le _ hone
  rwa [List.length_map, fullState, List.length_map, List.length_range] at hlen

/-- The logs of the links after a NAK. -/
theorem step_nak {count : ℕ} {x : ℤ} (hx : x ≠ -1) (htype : getSrtType m n = srtTypeNak)
    (h : step (fullState (count + 1) x) (.srtlaData 0 m n ts ret fuel) = some r) :
    ∃ ids, nakIds fuel m n (n / 4).toNat 4 = some ids ∧
      carried x r.1.conns = carried x (fullState (count + 1) x).conns - ids.count x := by
  have hpos := pos_of_getSrtType htype (by decide)
  have hconns := step_calls (distinct_fullState (count + 1) x) h
  have hh := step_srtlaData (get_fullState count x) h
  rw [handleSrtlaData, htype, if_neg (by omega), if_neg (by decide), if_neg (by decide), dispatch,
    htype, if_neg (by decide), if_pos rfl] at hh
  obtain ⟨ids, hids, _⟩ := Option.map_eq_some_iff.mp hh
  refine ⟨ids, hids, ?_⟩
  have hcalls : (fullState (count + 1) x).calls (.srtlaData 0 m n ts ret fuel) =
      .link 0 (.heard ts) :: ids.map .registerNak := by
    show datagramCalls 0 m n ts fuel = _
    rw [datagramCalls, frameCalls, htype, if_neg (by rw [not_or]; exact ⟨by omega, by decide⟩),
      if_neg (by decide), if_pos rfl, hids]
    rfl
  rw [hconns, hcalls]
  show carried x (applyCalls _ ((LinkCall.link 0 (.heard ts)).apply _)) = _
  rw [carried_registerNaks hx, carried_heard]

section Cut

variable {m₁ m₂ : Mem} (h₁ : Agree n m m₁) (h₂ : Agree n m m₂) (htype : getSrtType m n = srtTypeNak)
include h₁ h₂ htype

/-- A buffer on which the parser returns, and one on which it does not. -/
theorem distinguished_of_never (fuel : ℕ) (hsome : (nakIds fuel m₁ n (n / 4).toNat 4).isSome)
    (hnone : ∀ fuel, nakIds fuel m₂ n (n / 4).toNat 4 = none) : Distinguished m n := by
  have htype₂ := (getSrtType_congr h₂).symm.trans htype
  obtain ⟨r, hr, _⟩ := step_datagram (s := fullState 1 0) rfl (get_fullState 0 0)
    (fullLink_fd 0 0) m₁ n 0 (fun _ => 0) fuel fun _ => hsome
  refine ⟨m₁, m₂, h₁, h₂, _, 0, 0, fun _ => 0, r, ⟨fuel, hr⟩, ?_⟩
  rintro ⟨fuel', hr'⟩
  obtain ⟨ids, hids, _⟩ := step_nak (by decide) htype₂ hr'
  rw [hnone] at hids
  cases hids

/-- A buffer that gives one number more than another. -/
theorem distinguished_of_longer (fuel : ℕ) (ids : List ℤ) (x : ℤ) (hx : x ≠ -1)
    (hlong : nakIds fuel m₁ n (n / 4).toNat 4 = some (ids ++ [x]))
    (hshort : nakIds fuel m₂ n (n / 4).toNat 4 = some ids) : Distinguished m n := by
  have htype₁ := (getSrtType_congr h₁).symm.trans htype
  have htype₂ := (getSrtType_congr h₂).symm.trans htype
  obtain ⟨r, hr, _⟩ := step_datagram (s := fullState (ids.count x + 1) x) rfl (get_fullState _ x)
    (fullLink_fd x 0) m₁ n 0 (fun _ => 0) fuel
    fun _ => Option.isSome_of_eq_some hlong
  refine ⟨m₁, m₂, h₁, h₂, _, 0, 0, fun _ => 0, r, ⟨fuel, hr⟩, ?_⟩
  rintro ⟨fuel', hr'⟩
  obtain ⟨ids₁, hids₁, hcount₁⟩ := step_nak hx htype₁ hr
  obtain ⟨ids₂, hids₂, hcount₂⟩ := step_nak hx htype₂ hr'
  -- the results for the two amounts of fuel are the same
  have heq₁ : ids₁ = ids ++ [x] := Option.some.inj (hids₁.symm.trans hlong)
  have heq₂ : ids₂ = ids := Option.some.inj
    ((nakIds_mono (le_max_right fuel fuel') hids₂).symm.trans
      (nakIds_mono (le_max_left fuel fuel') hshort))
  rw [heq₁, List.count_append, List.count_singleton_self] at hcount₁
  rw [heq₂] at hcount₂
  have hle := le_carried_fullState (ids.count x + 1) x
  omega

end Cut

/-- The end of a range that is cut may be the largest one or the one before it. -/
theorem exists_ends (m : Mem) (n : ℤ) :
    ∃ m₁ m₂ last, Agree n m m₁ ∧ Agree n m m₂ ∧ largestEnd m n = last + 1 ∧
      be32 m₁ (4 * (n / 4).toNat) = last + 1 ∧ be32 m₂ (4 * (n / 4).toNat) = last := by
  have h₁ : Agree n m (fill n 0xFF m) := agree_fill n 0xFF m
  have hlast : fill n 0xFF m (4 * (n / 4).toNat + 3) = 0xFF := if_neg (by push_cast; omega)
  have hend := be32_update_last (fill n 0xFF m) (4 * (n / 4).toNat) 0xFE
  rw [hlast] at hend
  have hbytes : (0xFF : Byte).toNat = (0xFE : Byte).toNat + 1 := rfl
  refine ⟨fill n 0xFF m, Function.update (fill n 0xFF m) (4 * (n / 4).toNat + 3) 0xFE, _, h₁,
    h₁.trans (agree_update _ (by push_cast; omega) 0xFE), ?_, ?_, rfl⟩
  · unfold largestEnd
    omega
  · omega

/-- A NAK that ends in the start of a range with an end that may be one or
    another number. -/
theorem distinguished_nak (htype : getSrtType m n = srtTypeNak)
    (hcut : cutRange m n (n / 4).toNat 4 = some id) (hle : id ≤ largestEnd m n) :
    Distinguished m n := by
  obtain ⟨fuel₀, before, hids⟩ := nakIds_cut hcut
  obtain ⟨m₁, m₂, last, h₁, h₂, hlargest, hend₁, hend₂⟩ := exists_ends m n
  have hlt := be32_lt m₁ (4 * (n / 4).toNat)
  have hids₁ := hids m₁ h₁
  have hids₂ := hids m₂ h₂
  rw [hend₁] at hlt hids₁
  rw [hend₂] at hids₂
  rw [hlargest] at hle
  by_cases hnever : last + 1 = 2 ^ 32 - 1
  · -- the range up to `0xFFFFFFFF` does not end, the shorter one does
    obtain ⟨fuel₁, range, hrange⟩ := nakRange_returns id last (by omega)
    refine distinguished_of_never h₂ h₁ htype (max fuel₀ fuel₁) ?_ fun fuel => ?_
    · rw [hids₂ _ (le_max_left _ _), hrange _ (le_max_right _ _)]
      rfl
    · by_contra hsome
      obtain ⟨ids, hids⟩ := Option.ne_none_iff_exists'.mp hsome
      have hmore := nakIds_mono (le_max_left fuel fuel₀) hids
      rw [hids₁ _ (le_max_right _ _), hnever, nakRange_never _ (by omega)] at hmore
      cases hmore
  · refine distinguished_of_longer h₁ h₂ htype (max fuel₀ (last + 3))
      (before ++ (List.range' id (last + 1 - id)).map toInt32) (toInt32 (last + 1)) ?_ ?_ ?_
    · unfold toInt32
      split_ifs <;> push_cast <;> omega
    · rw [hids₁ _ (le_max_left _ _), nakRange_eq (by omega) (by omega),
        show last + 1 + 1 - id = last + 1 - id + 1 by omega, List.range'_concat, List.map_append,
        show id + 1 * (last + 1 - id) = last + 1 by omega, Option.map_some, List.append_assoc]
      rfl
    · rw [hids₂ _ (le_max_left _ _), nakRange_eq (by omega) (by omega)]
      rfl

theorem distinguished_of_not_complete (h : ¬ Complete m n) : Distinguished m n := by
  by_contra hnot
  refine h ⟨fun htype => ?_, fun htype => ?_, fun htype id hcut => ?_⟩
  · by_contra hn
    exact hnot (distinguished_ack htype (by omega))
  · by_contra hn
    exact hnot (distinguished_reg2 htype (by omega))
  · by_contra hle
    exact hnot (distinguished_nak htype hcut (by omega))

/-- The sender acts only on the `n` bytes received of `m`: with any bytes behind
    them it goes, from every state and on every link, to the same state and
    sends the same datagrams. -/
def ActsOnReceived (m : Mem) (n : ℤ) : Prop :=
  ∀ m₁ m₂, Agree n m m₁ → Agree n m m₂ →
    ∀ s ref ts ret r, Handles s ref m₁ n ts ret r ↔ Handles s ref m₂ n ts ret r

/-- **The sender acts only on bytes it received iff the datagram is complete**:
    an SRT ACK of 20 bytes or more, a REG2 of 258 bytes or more, a NAK without a
    range that may be nonempty and whose end was not received, or a datagram of
    any other type. -/
theorem acts_on_received_iff (m : Mem) (n : ℤ) : ActsOnReceived m n ↔ Complete m n := by
  constructor
  · intro h
    by_contra hc
    obtain ⟨m₁, m₂, h₁, h₂, s, ref, ts, ret, r, hr, hnot⟩ := distinguished_of_not_complete hc
    exact hnot ((h m₁ m₂ h₁ h₂ s ref ts ret r).mp hr)
  · intro hc m₁ m₂ h₁ h₂ s ref ts ret r
    refine exists_congr fun fuel => ?_
    rw [← step_congr h₁ hc, ← step_congr h₂ hc]

/-- The header of an SRT ACK, and behind its 16 bytes a word that ends in `b`. -/
def shortAck (b : Byte) : Mem := mem ([0x80, 0x02] ++ List.replicate 17 0 ++ [b])

/-- A sender that has just started gets an SRT ACK of 16 bytes. What it takes for
    the number acknowledged, and with it the log of its link, is up to the
    bytes that stand behind them. -/
theorem stale_ack :
    ∃ s₀ r r', start oneLink = some s₀ ∧ getSrtType (shortAck 0) 16 = srtTypeAck ∧
      Agree 16 (shortAck 0) (shortAck 1) ∧
      step s₀ (.srtlaData 0 (shortAck 0) 16 100 (fun _ => 0) 0) = some r ∧
      step s₀ (.srtlaData 0 (shortAck 1) 16 100 (fun _ => 0) 0) = some r' ∧
      r.1.conns.map (fun c => c.pktLog.get 1) = [0] ∧
      r'.1.conns.map (fun c => c.pktLog.get 1) = [-1] := by
  obtain ⟨s₀, h₀, hconns, hexited⟩ := start_oneLink
  have hget := get_only_link hconns rfl
  have htype : ∀ b, getSrtType (shortAck b) 16 = srtTypeAck := by
    intro b
    rw [getSrtType, if_neg (by decide)]
    show (0x80 : Byte).toNat * 256 + (0x02 : Byte).toNat = srtTypeAck
    decide
  have hstep : ∀ b, ∃ r, step s₀ (.srtlaData 0 (shortAck b) 16 100 (fun _ => 0) 0) = some r ∧
      r.1.exited = false :=
    fun b => step_datagram hexited hget (by decide) _ _ _ _ _
      fun hnak => absurd ((htype b).symm.trans hnak) (by decide)
  obtain ⟨r, hr, _⟩ := hstep 0
  obtain ⟨r', hr', _⟩ := hstep 1
  have hd := (start_calls h₀).2
  refine ⟨s₀, r, r', h₀, htype 0, ?_, hr, hr', ?_, ?_⟩
  · intro i hi
    have : i < 16 := by omega
    interval_cases i <;> rfl
  · rw [step_ack (c := oneLinkConn) hd hconns rfl (htype 0) hr]
    decide
  · rw [step_ack (c := oneLinkConn) hd hconns rfl (htype 1) hr']
    decide

end Srtla.Sender
