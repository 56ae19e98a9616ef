import Srtla.Sender.Journal

/-!
# What an SRT ACK counts (`src/sender.cpp:304-327`)

`conn_register_srt_ack` walks back through the log, clears the entries below the
acknowledged number and stores the number of the others as `in_flight_pkts`. What
it counts is said here without the log: for every link the list of its newest
registrations that a scan can see, in which an acknowledgement or a NAK settles
the newest entry of the packet on the first link that has one.

**Deviation.** The log of a new link is full of zeros, a cleared entry is -1, and
both can be found by an ACK or a NAK of these numbers. The lists do not have such
entries; the logs agree with them on the numbers from 1 on.

Results:
* `shows_kept`: every call keeps the logs and the lists in agreement.
* `srt_ack_recount`: in every run, what an SRT ACK stores is what the list of the
  link holds.
-/

namespace Srtla.Sender

open Lib

/-! ## Registrations in sight -/

/-- For every link its newest registrations since it was created or reset, newest
    first: `some p` while packet `p` is outstanding, `none` afterwards. -/
abbrev Sights := ℕ → List (Option ℤ)

/-- The newest entry of the packet is settled on the first link that has one. -/
def settle (refs : List ℕ) (packet : ℤ) (sights : Sights) : Sights :=
  match refs.find? fun ref => decide (some packet ∈ sights ref) with
  | some ref => Function.update sights ref ((sights ref).replace (some packet) none)
  | none => sights

/-- What a call does to the registrations in sight. Of the links it looks at their
    order only. -/
def LinkCall.observe (conns : List Conn) (sights : Sights) : LinkCall → Sights
  | .link ref (.regPkt packet) => Function.update sights ref ((some packet :: sights ref).take inSight)
  | .link ref .reset => Function.update sights ref []
  | .create ref _ => Function.update sights ref []
  | .registerSrtAck ack => fun ref => (sights ref).map fun e => e.filter fun p => decide (ack ≤ p)
  | .registerNak packet | .registerSrtlaAck packet => settle (conns.map Conn.ref) packet sights
  | _ => sights

/-- The log of the link shows the registrations, as far as a scan sees it. -/
structure Shows (c : Conn) (sight : List (Option ℤ)) : Prop where
  length : sight.length ≤ inSight
  entry : ∀ j, j < inSight → ∀ p, 1 ≤ p →
    (c.pktLog.get (Ring.back c.pktIdx j) = p ↔ sight[j]? = some (some p))

variable {c : Conn} {sight : List (Option ℤ)} {packet ack : ℤ} {i : Fin pktLogSz} {conns : List Conn}
  {sights : Sights}

theorem shows_readsLog : ReadsLog Shows := by
  intro c c' sight hidx hlog h
  refine ⟨h.length, ?_⟩
  rw [hidx, hlog]
  exact h.entry

/-- A log without numbers from 1 on shows nothing. -/
theorem shows_nil (h : ∀ i, c.pktLog.get i ≤ 0) : Shows c [] := by
  refine ⟨Nat.zero_le _, fun j _ p hp => ⟨fun hget => ?_, fun hget => by simp at hget⟩⟩
  have := h (Ring.back c.pktIdx j)
  omega

theorem shows_create (ref : ℕ) (src : Block 4) : Shows (Conn.create ref src) [] := by
  refine shows_nil fun i => ?_
  show (Vector.replicate pktLogSz (0 : ℤ))[i.val] ≤ 0
  rw [Vector.getElem_replicate]

theorem shows_wipe (c : Conn) : Shows c.wipe [] := by
  refine shows_nil fun i => ?_
  show (Vector.replicate pktLogSz (-1 : ℤ))[i.val] ≤ 0
  rw [Vector.getElem_replicate]
  decide

/-! ## Calls -/

theorem Shows.regPkt (h : Shows c sight) (packet : ℤ) :
    Shows (c.regPkt packet) ((some packet :: sight).take inSight) := by
  refine ⟨List.length_take_le _ _, fun j hj p hp => ?_⟩
  have hsz := hj.trans inSight_lt
  rw [Conn.regPkt_get, Conn.regPkt_idx, List.getElem?_take, if_pos hj]
  cases j with
  | zero =>
    rw [Ring.back_next_zero, if_pos rfl, List.getElem?_cons_zero]
    simp
  | succ j =>
    have hne : c.pktIdx ≠ Ring.back c.pktIdx j := by
      rw [ne_comm, Ne, Ring.back_eq_self_iff c.pktIdx (by omega)]
      omega
    rw [Ring.back_next_succ _ hsz, if_neg hne, List.getElem?_cons_succ]
    exact h.entry j (by omega) p hp

/-- A scan finds a packet from 1 on iff it is among the registrations. -/
theorem Shows.findPkt_iff (h : Shows c sight) (hp : 1 ≤ packet) :
    (c.findPkt packet).isSome ↔ some packet ∈ sight := by
  rw [List.mem_iff_getElem?]
  constructor
  · intro hfind
    obtain ⟨i, hi⟩ := Option.isSome_iff_exists.mp hfind
    obtain ⟨j, hj, rfl, hget, _⟩ := Conn.findPkt_newest hi
    exact ⟨j, (h.entry j hj packet hp).mp hget⟩
  · rintro ⟨j, hj⟩
    have hlt : j < inSight := (List.getElem?_eq_some_iff.mp hj).1.trans_le h.length
    rw [Conn.findPkt_isSome_iff]
    refine ⟨Ring.back c.pktIdx j, ?_, (h.entry j hlt packet hp).mpr hj⟩
    rw [Ne, Ring.back_eq_self_iff c.pktIdx (hlt.trans inSight_lt)]
    unfold inSight at hlt
    omega

/-- The entry that is cleared is the newest of the packet. -/
theorem Shows.clearSlot (h : Shows c sight) (hp : 1 ≤ packet) (hfind : c.findPkt packet = some i) :
    Shows (c.clearSlot i) (sight.replace (some packet) none) := by
  obtain ⟨j, hj, rfl, hget, hbefore⟩ := Conn.findPkt_newest hfind
  have hreplace : sight.replace (some packet) none = sight.set j none :=
    replace_eq_set ((h.entry j hj packet hp).mp hget) fun k hk hx =>
      hbefore k hk ((h.entry k (hk.trans hj) packet hp).mpr hx)
  rw [hreplace]
  refine ⟨by rw [List.length_set]; exact h.length, fun k hk p hp => ?_⟩
  show (c.clearSlot _).pktLog.get (Ring.back c.pktIdx k) = p ↔ _
  rw [Conn.clearSlot_get]
  simp only [Ring.back_inj c.pktIdx (hj.trans inSight_lt) (hk.trans inSight_lt)]
  by_cases hjk : j = k
  · rw [if_pos hjk, List.getElem?_set, if_pos hjk]
    refine ⟨fun e => by omega, fun e => ?_⟩
    split_ifs at e
    simp at e
  · rw [if_neg hjk, List.getElem?_set_ne hjk]
    exact h.entry k hk p hp

/-- Numbers below 1 are not in agreement, and need not be. -/
theorem Shows.clearSlot_of_lt (h : Shows c sight) (hp : packet < 1) (hfind : c.findPkt packet = some i) :
    Shows (c.clearSlot i) sight := by
  have hget := (Conn.findPkt_eq_some hfind).2
  refine ⟨h.length, fun k hk p hp' => ?_⟩
  show (c.clearSlot _).pktLog.get (Ring.back c.pktIdx k) = p ↔ _
  rw [Conn.clearSlot_get, ← h.entry k hk p hp']
  by_cases hik : i = Ring.back c.pktIdx k
  · rw [if_pos hik, ← hik, hget]
    exact ⟨fun e => by omega, fun e => by omega⟩
  · rw [if_neg hik]

theorem getElem?_replace_iff {α : Type*} [BEq α] [LawfulBEq α] {a b x : α} (ha : x ≠ a) (hb : x ≠ b)
    {l : List α} {j : ℕ} : (l.replace a b)[j]? = some x ↔ l[j]? = some x := by
  induction l generalizing j with
  | nil => rfl
  | cons y l ih =>
    rw [List.replace_cons]
    by_cases hy : a = y
    · subst hy
      cases j with
      | zero => simp [ha.symm, hb.symm]
      | succ j => simp
    · rw [beq_eq_false_iff_ne.mpr hy]
      cases j with
      | zero => rfl
      | succ j => exact ih

theorem Shows.replace_of_lt (h : Shows c sight) (hp : packet < 1) :
    Shows c (sight.replace (some packet) none) := by
  refine ⟨by rw [List.length_replace]; exact h.length, fun k hk p hp' => ?_⟩
  have hne : some p ≠ some packet := fun e => by
    have := Option.some.inj e
    omega
  rw [getElem?_replace_iff hne (Option.some_ne_none p)]
  exact h.entry k hk p hp'

theorem Shows.registerSrtAck (h : Shows c sight) (ack : ℤ) :
    Shows (c.registerSrtAck ack) (sight.map fun e => e.filter fun p => decide (ack ≤ p)) := by
  refine ⟨by rw [List.length_map]; exact h.length, fun j hj p hp => ?_⟩
  have hne : Ring.back c.pktIdx j ≠ c.pktIdx := by
    rw [Ne, Ring.back_eq_self_iff c.pktIdx (hj.trans inSight_lt)]
    unfold inSight at hj
    omega
  have hmap : (sight.map fun e => e.filter fun p => decide (ack ≤ p))[j]? = some (some p) ↔
      sight[j]? = some (some p) ∧ ack ≤ p := by
    rw [List.getElem?_map, Option.map_eq_some_iff]
    constructor
    · rintro ⟨e, he, hfilter⟩
      obtain ⟨rfl, hle⟩ := Option.filter_eq_some_iff.mp hfilter
      exact ⟨he, of_decide_eq_true hle⟩
    · rintro ⟨he, hle⟩
      exact ⟨some p, he, Option.filter_eq_some_iff.mpr ⟨rfl, decide_eq_true hle⟩⟩
  rw [(c.registerSrtAck_frame ack).1, Conn.registerSrtAck_get, hmap, ← h.entry j hj p hp]
  by_cases hlt : c.pktLog.get (Ring.back c.pktIdx j) < ack
  · rw [if_pos ⟨hne, hlt⟩]
    exact ⟨fun e => by omega, fun e => by omega⟩
  · rw [if_neg fun e => hlt e.2]
    exact ⟨fun e => ⟨e, by omega⟩, And.left⟩

/-- The link that is charged is the first that has the packet in sight. -/
theorem find?_sights (h : Booked Shows conns sights) (hp : 1 ≤ packet) :
    (conns.map Conn.ref).find? (fun ref => decide (some packet ∈ sights ref)) =
      (charged packet conns).map Conn.ref := by
  rw [List.find?_map, charged]
  congr 1
  refine List.find?_congr fun c hc => ?_
  rw [Function.comp_apply, Bool.eq_iff_iff, decide_eq_true_iff, (h c hc).findPkt_iff hp]

theorem settles_of_le (h : Booked Shows conns sights) (hp : 1 ≤ packet) :
    Settles Shows packet conns sights (settle (conns.map Conn.ref) packet sights) := by
  unfold Settles settle
  rw [find?_sights h hp]
  cases charged packet conns with
  | none => rfl
  | some c => exact ⟨_, rfl, fun i hfind hc => hc.clearSlot hp hfind⟩

theorem settles_of_lt (hp : packet < 1) : Settles Shows packet conns sights sights := by
  unfold Settles
  cases charged packet conns with
  | none => rfl
  | some c => exact ⟨_, (Function.update_eq_self _ _).symm, fun i hfind hc => hc.clearSlot_of_lt hp hfind⟩

theorem booked_settle_of_lt {refs : List ℕ} (h : Booked Shows conns sights) (hp : packet < 1) :
    Booked Shows conns (settle refs packet sights) := by
  intro c hc
  unfold settle
  cases refs.find? fun ref => decide (some packet ∈ sights ref) with
  | none => exact h c hc
  | some ref =>
    dsimp only
    by_cases href : c.ref = ref
    · rw [href, Function.update_self, ← href]
      exact (h c hc).replace_of_lt hp
    · rw [Function.update_of_ne href]
      exact h c hc

/-- An ACK or a NAK: below 1 the link that is charged need not be the one whose
    list is settled. -/
theorem booked_settle (h : Booked Shows conns sights) (hnodup : (conns.map Conn.ref).Nodup) {k : LinkCall}
    (hk : ∀ sights', Settles Shows packet conns sights sights' → k.Enters Shows conns sights sights') :
    Booked Shows (k.apply conns) (settle (conns.map Conn.ref) packet sights) := by
  by_cases hp : 1 ≤ packet
  · exact h.call shows_readsLog hnodup (hk _ (settles_of_le h hp))
  · have hp : packet < 1 := not_le.mp hp
    exact booked_settle_of_lt (h.call shows_readsLog hnodup (hk _ (settles_of_lt hp))) hp

/-- **Every call keeps the logs and the registrations in agreement.** -/
theorem shows_kept : KeptBy Shows LinkCall.observe := by
  intro b k hnodup _ hfresh h
  show Booked Shows (k.apply b.conns) (k.observe b.conns b.accounts)
  cases k with
  | registerNak packet => exact booked_settle h hnodup fun _ hs => hs
  | registerSrtlaAck ack => exact booked_settle h hnodup fun _ hs => hs
  | link ref change =>
    refine h.call shows_readsLog hnodup ?_
    cases change with
    | regPkt packet => exact ⟨_, rfl, fun c hc => hc.regPkt packet⟩
    | reset => exact ⟨_, rfl, shows_wipe⟩
    | selected | sendFailed | heard | openSocket | keep => rfl
  | registerSrtAck ack => exact h.call shows_readsLog hnodup fun c ref hc => hc.registerSrtAck ack
  | create ref src =>
    refine h.call shows_readsLog hnodup ⟨?_, fun c hc => Function.update_of_ne ?_ _ _⟩
    · show Shows _ (Function.update b.accounts ref [] ref)
      rw [Function.update_self]
      exact shows_create ref src
    · exact fun e => hfresh ref src rfl (e ▸ List.mem_map_of_mem hc)
  | mark | sweep => exact h.call shows_readsLog hnodup rfl

/-! ## The count -/

theorem Conn.nodup_slots (c : Conn) : c.slots.Nodup := by
  rw [Conn.slots_eq_back]
  refine List.Nodup.map_on (fun j hj k hk heq => ?_) List.nodup_range
  have hj := (List.mem_range.mp hj).trans inSight_lt
  have hk := (List.mem_range.mp hk).trans inSight_lt
  exact (Ring.back_inj c.pktIdx hj hk).mp heq

/-- An entry that an SRT ACK of `ack` leaves in flight. -/
def inFlight (ack : ℤ) (e : Option ℤ) : Bool := e.any fun p => decide (ack ≤ p)

theorem Shows.count (h : Shows c sight) (hack : 1 ≤ ack) :
    (c.registerSrtAck ack).inFlightPkts = sight.countP (inFlight ack) := by
  have hscan : (c.registerSrtAck ack).inFlightPkts =
      ((c.slots.countP fun i => decide (ack ≤ c.pktLog.get i) : ℕ) : ℤ) := by
    show (c.slots.foldl (srtAckSlot ack) (c, 0)).2 = _
    rw [foldl_srtAckSlot_count ack c.nodup_slots, zero_add]
  rw [hscan, Conn.slots_eq_back, List.countP_map, Ring.countP_range h.length]
  intro j hj
  rw [Function.comp_apply, decide_eq_true_iff]
  constructor
  · intro hle
    exact ⟨_, (h.entry j hj _ (hack.trans hle)).mp rfl, decide_eq_true hle⟩
  · rintro ⟨e, he, hin⟩
    cases e with
    | none => cases hin
    | some p =>
      have hle : ack ≤ p := of_decide_eq_true hin
      rw [(h.entry j hj p (hack.trans hle)).mpr he]
      exact hle

/-! ## Runs -/

/-- A run of the sender with the registrations in sight. -/
abbrev observed (s₀ : State) : Lts (Following (List (Option ℤ))) Op :=
  followed LinkCall.observe (fun _ => []) s₀

/-- The log with the entries in sight below `ack` cleared. -/
def Conn.clearedBelow (c : Conn) (ack : ℤ) : Vector ℤ pktLogSz :=
  Vector.ofFn fun j => if j ≠ c.pktIdx ∧ c.pktLog.get j < ack then -1 else c.pktLog.get j

theorem Conn.registerSrtAck_eq (c : Conn) (ack : ℤ) :
    c.registerSrtAck ack =
      { c with pktLog := c.clearedBelow ack, inFlightPkts := (c.registerSrtAck ack).inFlightPkts } := by
  have hlog : (c.registerSrtAck ack).pktLog = c.clearedBelow ack := by
    refine Vector.ext fun j hj => ?_
    rw [Conn.clearedBelow, Vector.getElem_ofFn]
    exact c.registerSrtAck_get ack ⟨j, hj⟩
  rw [← hlog]
  unfold Conn.registerSrtAck
  dsimp only
  rw [foldl_srtAckSlot_eq]

variable {cfg : Config} {s₀ : State} {a : Following (List (Option ℤ))}

/-- **An SRT ACK recounts the packets in flight exactly.** At any moment of any run,
    between the calls of a step too, `register_srt_ack(ack)` with `ack` from 1 on
    stores in `in_flight_pkts` of every link the number of outstanding packets
    from `ack` on among its registrations in sight. It clears the entries in sight
    below `ack` and changes nothing else. -/
theorem srt_ack_recount (h₀ : start cfg = some s₀) (h : (observed s₀).Reachable a) {op : Op}
    {ks ks' : List LinkCall} (hcalls : a.state.calls op = ks ++ ks') (hack : 1 ≤ ack) :
    ((a.books.calls LinkCall.observe ks).call LinkCall.observe (.registerSrtAck ack)).conns =
      (a.books.calls LinkCall.observe ks).conns.map fun c =>
        { c with
          pktLog := c.clearedBelow ack
          inFlightPkts :=
            (((a.books.calls LinkCall.observe ks).accounts c.ref).countP (inFlight ack) : ℕ) } := by
  have hshows := shows_kept.between_calls h₀ (booked_start shows_readsLog shows_create h₀) h hcalls
  refine List.map_congr_left fun c hc => ?_
  rw [← (hshows c hc).count hack]
  exact c.registerSrtAck_eq ack

/-- A sender with one link registers the packets 1, 2 and 3 on it. When the SRT
    receiver acknowledges all packets before 2, two packets are in flight. -/
theorem srt_ack_recount_three :
    ∃ s₀ a c, start oneLink = some s₀ ∧ (observed s₀).Reachable a ∧ a.state.conns = [c] ∧
      c.inFlightPkts = 3 ∧ a.accounts c.ref = [some 3, some 2, some 1] ∧
      (registerSrtAck 2 (applyCalls [.link 0 (.heard 100)] a.state.conns)).map Conn.inFlightPkts = [2] := by
  obtain ⟨s₀, a₀, h₀, hreach₀, halone₀, hacc₀⟩ := followed_reg3 LinkCall.observe fun _ => []
  obtain ⟨a₁, hreach₁, halone₁, hacc₁⟩ := followed_data (n := 1) hreach₀ halone₀ (by decide)
  obtain ⟨a₂, hreach₂, halone₂, hacc₂⟩ := followed_data (n := 2) hreach₁ halone₁ (by decide)
  obtain ⟨a₃, hreach₃, halone₃, hacc₃⟩ := followed_data (n := 3) hreach₂ halone₂ (by decide)
  have haccounts : a₃.accounts 0 = [some 3, some 2, some 1] := by
    rw [hacc₃]
    show (some 3 :: a₂.accounts 0).take inSight = _
    rw [hacc₂]
    show (some 3 :: (some 2 :: a₁.accounts 0).take inSight).take inSight = _
    rw [hacc₁]
    show (some 3 :: (some 2 :: (some 1 :: a₀.accounts 0).take inSight).take inSight).take inSight = _
    rw [hacc₀]
    rfl
  have hcalls : a₃.state.calls (srtAckOf 2) = [.link 0 (.heard 100)] ++ [.registerSrtAck 2] :=
    calls_srtAckOf a₃.state (by decide)
  have hcount := srt_ack_recount h₀ hreach₃ hcalls (show (1 : ℤ) ≤ 2 by decide)
  refine ⟨s₀, a₃, _, h₀, hreach₃, halone₃.conns, rfl, haccounts, ?_⟩
  have hconns : registerSrtAck 2 (applyCalls [.link 0 (.heard 100)] a₃.state.conns) = _ :=
    (congrArg (registerSrtAck 2) (Books.calls_conns _ _).symm).trans hcount
  rw [hconns, Books.calls_conns, List.map_map]
  show (applyCalls [.link 0 (.heard 100)] a₃.state.conns).map _ = _
  rw [halone₃.conns]
  show [((a₃.accounts 0).countP (inFlight 2) : ℤ)] = [2]
  rw [haccounts]
  rfl

end Srtla.Sender
