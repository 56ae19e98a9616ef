import Srtla.Lib.Keyed
import Srtla.Sender.Conn

/-!
# The packet log of a link (`src/sender.cpp:155-163`, `:247-321`)

The log is a ring of `PKT_LOG_SZ` numbers. A scan visits every slot but the one
that is written next, each of them once. `logged` is the set of those slots
whose number satisfies a condition; the lemmas say how the functions that write
the log change it.

Results:
* `mem_slots`: a scan visits exactly the slots other than `pkt_idx`.
* `findPkt_isSome_iff`: a scan finds a number iff one of these slots has it.
* `registerSrtAck_get`: an SRT ACK clears exactly the visited slots below it.
* `registerNak_eq`, `registerSrtlaAck_eq`: at most one link is charged, the
  first whose log has the number.
-/

namespace Srtla.Sender

open Lib

/-! ## The slots a scan visits -/

theorem getPktIdx_back (stop : Fin pktLogSz) (k : ℕ) :
    getPktIdx (Fin.ofNat pktLogSz (stop.val + (k + 1))) (-1) = Fin.ofNat pktLogSz (stop.val + k) := by
  have hval : ∀ m : ℕ, (Fin.ofNat pktLogSz m).val = m % 256 := fun _ => rfl
  apply Fin.ext
  simp only [getPktIdx, hval]
  by_cases h : (stop.val + (k + 1)) % 256 = 0
  · rw [if_pos (by omega), Int.tmod_eq_emod_of_nonneg (by rw [h]; decide)]
    simp only [pktLogSz]
    omega
  · rw [if_neg (by omega), Int.tmod_eq_emod_of_nonneg (by omega)]
    simp only [pktLogSz]
    omega

theorem ofNat_add_eq_self_iff (stop : Fin pktLogSz) (k : ℕ) :
    Fin.ofNat pktLogSz (stop.val + k) = stop ↔ k % pktLogSz = 0 := by
  have hstop : stop.val < 256 := stop.isLt
  rw [Fin.ext_iff]
  show (stop.val + k) % 256 = stop.val ↔ k % 256 = 0
  omega

theorem walkBack_eq (stop : Fin pktLogSz) (k : ℕ) (hk : k < pktLogSz) :
    walkBack stop (k + 1) (Fin.ofNat pktLogSz (stop.val + k)) =
      (List.range k).reverse.map fun j => Fin.ofNat pktLogSz (stop.val + (j + 1)) := by
  induction k with
  | zero =>
    rw [walkBack, if_pos ((ofNat_add_eq_self_iff stop 0).mpr rfl)]
    rfl
  | succ k ih =>
    have hne : ¬ Fin.ofNat pktLogSz (stop.val + (k + 1)) = stop := by
      rw [ofNat_add_eq_self_iff, Nat.mod_eq_of_lt hk]
      omega
    rw [walkBack, if_neg hne, getPktIdx_back, ih (by omega), List.range_succ, List.reverse_concat,
      List.map_cons]

theorem Conn.slots_eq (c : Conn) :
    c.slots = (List.range 255).reverse.map fun j => Fin.ofNat pktLogSz (c.pktIdx.val + (j + 1)) := by
  have hstart : getPktIdx c.pktIdx (-1) = Fin.ofNat pktLogSz (c.pktIdx.val + 255) := by
    have h := getPktIdx_back c.pktIdx 255
    rwa [(ofNat_add_eq_self_iff c.pktIdx 256).mpr rfl] at h
  rw [Conn.slots, hstart]
  exact walkBack_eq c.pktIdx 255 (by decide)

/-- **A scan of the log visits every slot but the one to be written next.** -/
theorem Conn.mem_slots {c : Conn} {i : Fin pktLogSz} : i ∈ c.slots ↔ i ≠ c.pktIdx := by
  have hi : i.val < 256 := i.isLt
  have hidx : c.pktIdx.val < 256 := c.pktIdx.isLt
  rw [Conn.slots_eq, List.mem_map]
  constructor
  · rintro ⟨j, hj, rfl⟩
    have hj : j < 255 := List.mem_range.mp (List.mem_reverse.mp hj)
    rw [ne_eq, ofNat_add_eq_self_iff, Nat.mod_eq_of_lt (show j + 1 < pktLogSz from by
      simp only [pktLogSz]; omega)]
    omega
  · intro hne
    have hne : i.val ≠ c.pktIdx.val := fun h => hne (Fin.ext h)
    refine ⟨(i.val + 255 - c.pktIdx.val) % 256, ?_, ?_⟩
    · rw [List.mem_reverse, List.mem_range]
      omega
    · apply Fin.ext
      show (c.pktIdx.val + ((i.val + 255 - c.pktIdx.val) % 256 + 1)) % 256 = i.val
      omega

/-! ## What a scan finds -/

theorem Conn.findPkt_eq_some {c : Conn} {packet : ℤ} {i : Fin pktLogSz}
    (h : c.findPkt packet = some i) : i ≠ c.pktIdx ∧ c.pktLog.get i = packet :=
  ⟨Conn.mem_slots.mp (List.mem_of_find?_eq_some h), by simpa using List.find?_some h⟩

theorem Conn.findPkt_isSome_iff {c : Conn} {packet : ℤ} :
    (c.findPkt packet).isSome ↔ ∃ i, i ≠ c.pktIdx ∧ c.pktLog.get i = packet := by
  rw [Conn.findPkt, List.find?_isSome]
  simp only [Conn.mem_slots, decide_eq_true_eq]

/-- The slots a scan visits whose number satisfies `P`. -/
def Conn.logged (c : Conn) (P : ℤ → Prop) [DecidablePred P] : Finset (Fin pktLogSz) :=
  Finset.univ.filter fun i => i ≠ c.pktIdx ∧ P (c.pktLog.get i)

variable {c : Conn} {i : Fin pktLogSz} {packet n : ℤ} {P : ℤ → Prop} [DecidablePred P]

theorem Conn.mem_logged : i ∈ c.logged P ↔ i ≠ c.pktIdx ∧ P (c.pktLog.get i) := by
  rw [Conn.logged, Finset.mem_filter]
  exact and_iff_right (Finset.mem_univ i)

theorem Conn.logged_eq_empty (h : ∀ i, ¬ P (c.pktLog.get i)) : c.logged P = ∅ :=
  Finset.eq_empty_of_forall_notMem fun i hi => h i (Conn.mem_logged.mp hi).2

theorem Conn.logged_congr {d : Conn} (hlog : d.pktLog = c.pktLog)
    (hidx : d.pktIdx = c.pktIdx) : d.logged P = c.logged P := by
  unfold Conn.logged
  rw [hlog, hidx]

/-- A number that is found has an entry in sight. -/
theorem Conn.logged_pos_of_findPkt (h : c.findPkt packet = some i) :
    0 < (c.logged fun q => q = packet).card :=
  Finset.card_pos.mpr ⟨i, Conn.mem_logged.mpr (Conn.findPkt_eq_some h)⟩

/-! ## Writing the log -/

theorem get_set_log (v : Vector ℤ pktLogSz) (i j : Fin pktLogSz) (x : ℤ) :
    (v.set i x i.isLt).get j = if i = j then x else v.get j := by
  show (v.set i x i.isLt)[j.val] = if i = j then x else v[j.val]
  simp only [Vector.getElem_set, Fin.ext_iff]

theorem Conn.clearSlot_get (c : Conn) (i j : Fin pktLogSz) :
    (c.clearSlot i).pktLog.get j = if i = j then -1 else c.pktLog.get j :=
  get_set_log _ _ _ _

theorem Conn.regPkt_get (c : Conn) (packet : ℤ) (j : Fin pktLogSz) :
    (c.regPkt packet).pktLog.get j = if c.pktIdx = j then packet else c.pktLog.get j :=
  get_set_log _ _ _ _

/-- A cleared slot is no longer among those that satisfy `P`. -/
theorem Conn.logged_clearSlot (hP : ¬ P (-1)) : (c.clearSlot i).logged P = (c.logged P).erase i := by
  ext j
  rw [Finset.mem_erase, Conn.mem_logged, Conn.mem_logged, Conn.clearSlot_get]
  show j ≠ c.pktIdx ∧ _ ↔ _
  by_cases h : i = j
  · rw [if_pos h]
    exact ⟨fun hj => absurd hj.2 hP, fun hj => absurd h.symm hj.1⟩
  · rw [if_neg h]
    exact ⟨fun hj => ⟨Ne.symm h, hj⟩, fun hj => hj.2⟩

theorem Conn.card_logged_clearSlot_le (hP : ¬ P (-1)) :
    ((c.clearSlot i).logged P).card ≤ (c.logged P).card := by
  rw [Conn.logged_clearSlot hP]
  exact Finset.card_erase_le

theorem Conn.card_logged_clearSlot (hP : ¬ P (-1)) (hfind : c.findPkt packet = some i)
    (hpacket : P packet) : ((c.clearSlot i).logged P).card + 1 = (c.logged P).card := by
  obtain ⟨hi, hget⟩ := Conn.findPkt_eq_some hfind
  rw [Conn.logged_clearSlot hP]
  exact Finset.card_erase_add_one (Conn.mem_logged.mpr ⟨hi, hget.symm ▸ hpacket⟩)

/-- `reg_pkt` adds at most the packet it registers; it also puts the oldest
    entry out of sight. -/
theorem Conn.card_logged_regPkt :
    ((c.regPkt packet).logged P).card ≤ (c.logged P).card + if P packet then 1 else 0 := by
  have hsub : ∀ j ∈ (c.regPkt packet).logged P, (j = c.pktIdx ∧ P packet) ∨ j ∈ c.logged P := by
    intro j hj
    have hget : P (if c.pktIdx = j then packet else c.pktLog.get j) := by
      rw [← Conn.regPkt_get]
      exact (Conn.mem_logged.mp hj).2
    by_cases h : c.pktIdx = j
    · rw [if_pos h] at hget
      exact Or.inl ⟨h.symm, hget⟩
    · rw [if_neg h] at hget
      exact Or.inr (Conn.mem_logged.mpr ⟨Ne.symm h, hget⟩)
  split_ifs with hp
  · refine (Finset.card_le_card fun j hj => ?_).trans (Finset.card_insert_le c.pktIdx _)
    rw [Finset.mem_insert]
    exact (hsub j hj).imp And.left id
  · rw [add_zero]
    refine Finset.card_le_card fun j hj => ?_
    exact (hsub j hj).resolve_left fun h => hp h.2

/-! ## SRTLA ACKs -/

theorem Conn.ackAt_window (c : Conn) (i : Fin pktLogSz) :
    c.window ≤ (c.ackAt i).window ∧ (c.ackAt i).window ≤ c.window + (windowIncr - 1) := by
  unfold Conn.ackAt Conn.clearSlot
  dsimp only
  simp only [windowIncr]
  split_ifs <;> constructor <;> dsimp only <;> omega

theorem Conn.ackAt_inFlight (c : Conn) (i : Fin pktLogSz) :
    (c.ackAt i).inFlightPkts = if c.inFlightPkts > 0 then c.inFlightPkts - 1 else c.inFlightPkts := by
  unfold Conn.ackAt Conn.clearSlot
  dsimp only
  split_ifs <;> rfl

theorem Conn.ackAt_frame (c : Conn) (i : Fin pktLogSz) :
    (c.ackAt i).pktLog = (c.clearSlot i).pktLog ∧ (c.ackAt i).pktIdx = c.pktIdx ∧
      (c.ackAt i).lastRcvd = c.lastRcvd := by
  unfold Conn.ackAt Conn.clearSlot
  dsimp only
  split_ifs <;> exact ⟨rfl, rfl, rfl⟩

/-! ## SRT ACKs -/

theorem srtAckSlot_get (ack : ℤ) (p : Conn × ℤ) (i j : Fin pktLogSz) :
    (srtAckSlot ack p i).1.pktLog.get j =
      if i = j ∧ p.1.pktLog.get j < ack then -1 else p.1.pktLog.get j := by
  unfold srtAckSlot
  by_cases h : p.1.pktLog.get i < ack
  · rw [if_pos h]
    show (p.1.clearSlot i).pktLog.get j = _
    rw [Conn.clearSlot_get]
    by_cases hij : i = j
    · rw [if_pos hij, if_pos ⟨hij, hij ▸ h⟩]
    · rw [if_neg hij, if_neg fun hc => hij hc.1]
  · rw [if_neg h, if_neg]
    rintro ⟨rfl, hlt⟩
    exact h hlt

/-- What the loop of `conn_register_srt_ack` leaves alone, and that it counts upwards. -/
theorem foldl_srtAckSlot_frame (ack : ℤ) (l : List (Fin pktLogSz)) (p : Conn × ℤ) :
    let r := l.foldl (srtAckSlot ack) p
    r.1.pktIdx = p.1.pktIdx ∧ r.1.window = p.1.window ∧ r.1.lastRcvd = p.1.lastRcvd ∧ p.2 ≤ r.2 := by
  induction l generalizing p with
  | nil => exact ⟨rfl, rfl, rfl, le_rfl⟩
  | cons i l ih =>
    obtain ⟨hidx, hwin, hrcvd, hcount⟩ := ih (srtAckSlot ack p i)
    simp only [List.foldl_cons]
    rw [hidx, hwin, hrcvd]
    refine ⟨?_, ?_, ?_, le_trans ?_ hcount⟩
    all_goals
      unfold srtAckSlot
      split_ifs
    all_goals simp [Conn.clearSlot]

theorem foldl_srtAckSlot_get (ack : ℤ) (l : List (Fin pktLogSz)) (p : Conn × ℤ)
    (j : Fin pktLogSz) :
    (l.foldl (srtAckSlot ack) p).1.pktLog.get j =
      if j ∈ l ∧ p.1.pktLog.get j < ack then -1 else p.1.pktLog.get j := by
  induction l generalizing p with
  | nil => rw [if_neg fun h => List.not_mem_nil h.1]; rfl
  | cons i l ih =>
    rw [List.foldl_cons, ih, srtAckSlot_get]
    by_cases hlt : p.1.pktLog.get j < ack
    · by_cases hij : i = j
      · -- the slot is cleared here and stays so
        subst hij
        rw [if_pos (c := i = i ∧ _) ⟨rfl, hlt⟩, if_pos (c := i ∈ i :: l ∧ _) ⟨List.mem_cons_self, hlt⟩]
        exact ite_self _
      · rw [if_neg (c := i = j ∧ _) fun h => hij h.1]
        simp only [List.mem_cons, Ne.symm hij, false_or]
    · simp only [hlt, and_false, if_false]

/-- **An SRT ACK clears the visited slots with a smaller number and no other.** -/
theorem Conn.registerSrtAck_get (c : Conn) (ack : ℤ) (j : Fin pktLogSz) :
    (c.registerSrtAck ack).pktLog.get j =
      if j ≠ c.pktIdx ∧ c.pktLog.get j < ack then -1 else c.pktLog.get j := by
  show (c.slots.foldl (srtAckSlot ack) (c, 0)).1.pktLog.get j = _
  rw [foldl_srtAckSlot_get]
  simp only [Conn.mem_slots]

theorem Conn.registerSrtAck_frame (c : Conn) (ack : ℤ) :
    (c.registerSrtAck ack).pktIdx = c.pktIdx ∧ (c.registerSrtAck ack).window = c.window ∧
      (c.registerSrtAck ack).lastRcvd = c.lastRcvd ∧ 0 ≤ (c.registerSrtAck ack).inFlightPkts :=
  foldl_srtAckSlot_frame ack c.slots (c, 0)

/-- The loop of `conn_register_srt_ack` writes nothing but the log. -/
theorem foldl_srtAckSlot_eq (ack : ℤ) (l : List (Fin pktLogSz)) (p : Conn × ℤ) :
    (l.foldl (srtAckSlot ack) p).1 = { p.1 with pktLog := (l.foldl (srtAckSlot ack) p).1.pktLog } := by
  induction l generalizing p with
  | nil => rfl
  | cons i l ih =>
    rw [List.foldl_cons, ih]
    unfold srtAckSlot
    split_ifs <;> rfl

/-- The loop counts the entries that it does not clear. -/
theorem foldl_srtAckSlot_count (ack : ℤ) {l : List (Fin pktLogSz)} (hl : l.Nodup) (p : Conn × ℤ) :
    (l.foldl (srtAckSlot ack) p).2 = p.2 + l.countP fun i => decide (ack ≤ p.1.pktLog.get i) := by
  induction l generalizing p with
  | nil => simp
  | cons i l ih =>
    obtain ⟨hi, hl⟩ := List.nodup_cons.mp hl
    -- clearing slot `i` does not show in the slots visited after it
    have hrest : l.countP (fun j => decide (ack ≤ (srtAckSlot ack p i).1.pktLog.get j)) =
        l.countP fun j => decide (ack ≤ p.1.pktLog.get j) := by
      refine List.countP_congr fun j hj => ?_
      have hij : i ≠ j := fun e => hi (e ▸ hj)
      rw [srtAckSlot_get, if_neg fun h => hij h.1]
    have hhead : (srtAckSlot ack p i).2 = p.2 + if ack ≤ p.1.pktLog.get i then 1 else 0 := by
      unfold srtAckSlot
      by_cases h : p.1.pktLog.get i < ack
      · rw [if_pos h, if_neg (not_le.mpr h), add_zero]
      · rw [if_neg h, if_pos (not_lt.mp h)]
    rw [List.foldl_cons, ih hl, hrest, hhead, List.countP_cons]
    simp only [decide_eq_true_eq]
    push_cast
    ring

/-- What is left after an SRT ACK is what satisfied `P` and is not below it. -/
theorem Conn.logged_registerSrtAck (hP : ¬ P (-1)) :
    (c.registerSrtAck n).logged P = c.logged fun q => P q ∧ n ≤ q := by
  ext j
  rw [Conn.mem_logged, Conn.mem_logged, Conn.registerSrtAck_get, (c.registerSrtAck_frame n).1]
  constructor
  · rintro ⟨hj, hp⟩
    by_cases hlt : c.pktLog.get j < n
    · rw [if_pos ⟨hj, hlt⟩] at hp
      exact absurd hp hP
    · rw [if_neg fun h => hlt h.2] at hp
      exact ⟨hj, hp, not_lt.mp hlt⟩
  · rintro ⟨hj, hp, hle⟩
    rw [if_neg fun h => absurd h.2 (not_lt.mpr hle)]
    exact ⟨hj, hp⟩

/-! ## The link that is charged -/

/-- The link whose log `register_nak` and `register_srtla_ack` find the packet in. -/
def charged (packet : ℤ) (conns : List Conn) : Option Conn :=
  conns.find? fun c => (c.findPkt packet).isSome

/-- Changes the link that is charged for the packet. -/
def charge (packet : ℤ) (f : Conn → Conn) (conns : List Conn) : List Conn :=
  match charged packet conns with
  | none => conns
  | some c => Keyed.modify Conn.ref c.ref f conns

/-- What `register_nak` does to the link it charges. -/
def Conn.nak (packet : ℤ) (c : Conn) : Conn :=
  match c.findPkt packet with
  | some i => c.nakAt i
  | none => c

/-- What `register_srtla_ack` does to the link it charges. -/
def Conn.ack (packet : ℤ) (c : Conn) : Conn :=
  match c.findPkt packet with
  | some i => c.ackAt i
  | none => c

variable {conns : List Conn} {f : Conn → Conn}

theorem charged_mem (h : charged packet conns = some c) : c ∈ conns := List.mem_of_find?_eq_some h

theorem charged_findPkt (h : charged packet conns = some c) : ∃ i, c.findPkt packet = some i :=
  Option.isSome_iff_exists.mp (List.find?_some (p := fun c : Conn => (c.findPkt packet).isSome) h)

theorem mem_charge (hnodup : (conns.map Conn.ref).Nodup) {x : Conn} (hx : x ∈ charge packet f conns) :
    ∃ y ∈ conns, (charged packet conns = some y ∧ x = f y) ∨ (charged packet conns ≠ some y ∧ x = y) := by
  unfold charge at hx
  cases hc : charged packet conns with
  | none =>
    rw [hc] at hx
    exact ⟨x, hx, Or.inr ⟨nofun, rfl⟩⟩
  | some c =>
    rw [hc] at hx
    obtain ⟨y, hy, ⟨hk, rfl⟩ | ⟨hk, rfl⟩⟩ := Keyed.mem_modify hx
    · exact ⟨y, hy, Or.inl ⟨by rw [Keyed.eq_of_key_eq hnodup hy (charged_mem hc) hk], rfl⟩⟩
    · refine ⟨x, hy, Or.inr ⟨fun e => hk ?_, rfl⟩⟩
      rw [Option.some.inj e]

theorem charge_cons_of_found (hnodup : ((c :: conns).map Conn.ref).Nodup)
    (h : (c.findPkt packet).isSome) : charge packet f (c :: conns) = f c :: conns := by
  have hc : charged packet (c :: conns) = some c := List.find?_cons_of_pos h
  unfold charge
  rw [hc]
  exact Keyed.modify_append_cons (l := []) hnodup

theorem charge_cons_of_not_found (hnodup : ((c :: conns).map Conn.ref).Nodup)
    (h : ¬ (c.findPkt packet).isSome) :
    charge packet f (c :: conns) = c :: charge packet f conns := by
  have hc : charged packet (c :: conns) = charged packet conns := List.find?_cons_of_neg h
  unfold charge
  rw [hc]
  cases hd : charged packet conns with
  | none => rfl
  | some d =>
    have hne : c.ref ≠ d.ref := fun e =>
      (List.nodup_cons.mp hnodup).1 (e ▸ List.mem_map_of_mem (charged_mem hd))
    show (if c.ref = d.ref then f c else c) :: _ = _
    rw [if_neg hne]
    rfl

/-- **`register_nak` charges the first link whose log has the packet and no other.** -/
theorem registerNak_eq (hnodup : (conns.map Conn.ref).Nodup) :
    registerNak packet conns = charge packet (Conn.nak packet) conns := by
  induction conns with
  | nil => rfl
  | cons c cs ih =>
    cases hfind : c.findPkt packet with
    | some i =>
      rw [registerNak, charge_cons_of_found hnodup (by rw [hfind]; rfl), Conn.nak]
      simp only [hfind]
    | none =>
      rw [registerNak, charge_cons_of_not_found hnodup (by rw [hfind]; exact Bool.false_ne_true)]
      simp only [hfind]
      rw [ih (List.nodup_cons.mp hnodup).2]

theorem registerSrtlaAckLoop_of_found :
    registerSrtlaAckLoop packet true conns = conns.map Conn.grow := by
  induction conns with
  | nil => rfl
  | cons c cs ih =>
    rw [registerSrtlaAckLoop, List.map_cons, ← ih]
    rfl

/-- **`register_srtla_ack` credits the first link whose log has the packet, and
    then lets every link grow.** -/
theorem registerSrtlaAck_eq (hnodup : (conns.map Conn.ref).Nodup) :
    registerSrtlaAck packet conns = (charge packet (Conn.ack packet) conns).map Conn.grow := by
  unfold registerSrtlaAck
  induction conns with
  | nil => rfl
  | cons c cs ih =>
    cases hfind : c.findPkt packet with
    | some i =>
      rw [registerSrtlaAckLoop, charge_cons_of_found hnodup (by rw [hfind]; rfl), List.map_cons,
        Conn.ack]
      simp only [hfind, Bool.false_eq_true, if_false, Option.isSome_some, Bool.or_true]
      rw [registerSrtlaAckLoop_of_found]
    | none =>
      rw [registerSrtlaAckLoop,
        charge_cons_of_not_found hnodup (by rw [hfind]; exact Bool.false_ne_true), List.map_cons,
        ← ih (List.nodup_cons.mp hnodup).2]
      simp only [hfind, Bool.false_eq_true, if_false, Option.isSome_none, Bool.or_false]

end Srtla.Sender
