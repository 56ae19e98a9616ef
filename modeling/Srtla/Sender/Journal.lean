import Srtla.Lib.Ring
import Srtla.Sender.Charges

/-!
# What the packet log remembers (`src/sender.cpp:155-163`, `:247-327`)

`reg_pkt` writes the log of a link in turn, so that its `PKT_LOG_SZ` entries are
the packets registered last. A journal is the history behind it: all that was
registered on the link since it was created or reset, with what has been settled
since by an SRTLA ACK, a NAK or an SRT ACK.

**Deviation.** A scan of the log starts at the newest entry and ends before
`pkt_idx`, which is the slot of the oldest one. The log remembers one packet less
than it has room for.

Results:
* `keeps_reachable`: in every run, the log of every link holds the newest entries
  of its journal.
* `nak_found_iff`: a NAK of an outstanding packet among the `PKT_LOG_SZ` newest of
  a link is charged to it or an earlier link iff it is among the `PKT_LOG_SZ - 1`
  newest, or there is another copy in sight.
* `oldest_forgotten`: with a full log, the NAK of the oldest packet changes nothing.
-/

namespace Srtla.Sender

open Lib

/-! ## Journals -/

/-- For every link what was registered on it since it was created or reset,
    newest first: `some p` while packet `p` is outstanding, `none` afterwards. -/
abbrev Journals := ℕ → List (Option ℤ)

/-- How many entries of the log a scan visits. -/
def inSight : ℕ := pktLogSz - 1

/-- How an entry of a journal shows in the log. -/
def logEntry (e : Option ℤ) : ℤ := e.getD (-1)

/-- The packets below `ack` that are in sight are settled. -/
def settleBelow (ack : ℤ) (journal : List (Option ℤ)) : List (Option ℤ) :=
  journal.mapIdx fun j e => if j < inSight then e.filter fun p => decide (ack ≤ p) else e

/-- What a call enters into the journals. A NAK or an SRTLA ACK settles the newest
    registration of the packet on the link that it is charged to. -/
def LinkCall.enter (conns : List Conn) (journals : Journals) : LinkCall → Journals
  | .link ref (.regPkt packet) => Function.update journals ref (some packet :: journals ref)
  | .link ref .reset => Function.update journals ref []
  | .create ref _ => Function.update journals ref []
  | .registerSrtAck ack => fun ref => settleBelow ack (journals ref)
  | .registerNak packet | .registerSrtlaAck packet =>
    match charged packet conns with
    | some c => Function.update journals c.ref ((journals c.ref).replace (some packet) none)
    | none => journals
  | _ => journals

/-- The log of the link holds the newest entries of the journal. -/
structure Keeps (c : Conn) (journal : List (Option ℤ)) : Prop where
  recalls : Ring.Recalls logEntry c.pktIdx c.pktLog.get journal
  nonneg : ∀ p, some p ∈ journal → 0 ≤ p

variable {c : Conn} {journal : List (Option ℤ)} {packet : ℤ} {i : Fin pktLogSz}
  {conns : List Conn}

/-! ## Scans -/

theorem Conn.slots_eq_back (c : Conn) : c.slots = (List.range inSight).map (Ring.back c.pktIdx) := by
  rw [Conn.slots_eq, List.range_eq_range', List.reverse_range', List.map_map]
  refine List.map_congr_left fun j hj => ?_
  have hj : j < 255 := List.mem_range.mp hj
  show Fin.ofNat pktLogSz (c.pktIdx.val + (0 + 255 - 1 - j + 1)) =
    Fin.ofNat pktLogSz (c.pktIdx.val + (256 - 1 - j))
  congr 2
  omega

/-- A scan finds the newest entry of a packet. -/
theorem Conn.findPkt_newest (h : c.findPkt packet = some i) :
    ∃ j, j < inSight ∧ i = Ring.back c.pktIdx j ∧ c.pktLog.get i = packet ∧
      ∀ k, k < j → c.pktLog.get (Ring.back c.pktIdx k) ≠ packet := by
  rw [Conn.findPkt, Conn.slots_eq_back, List.find?_map, Option.map_eq_some_iff] at h
  obtain ⟨j, hfind, rfl⟩ := h
  obtain ⟨hget, hj, hbefore⟩ := List.find?_range_eq_some.mp hfind
  refine ⟨j, List.mem_range.mp hj, rfl, of_decide_eq_true hget, fun k hk heq => ?_⟩
  have := hbefore k hk
  rw [Function.comp_apply, heq] at this
  simp at this

theorem inSight_lt : inSight < pktLogSz := by decide

/-! ## Calls -/

theorem keeps_readsLog : ReadsLog Keeps := by
  intro c c' journal hidx hlog h
  refine ⟨?_, h.nonneg⟩
  rw [hlog, hidx]
  exact h.recalls

theorem keeps_nil (c : Conn) : Keeps c [] :=
  ⟨fun _ _ _ hx => absurd hx (by simp), fun _ hp => absurd hp List.not_mem_nil⟩

theorem Conn.regPkt_idx (c : Conn) (packet : ℤ) : (c.regPkt packet).pktIdx = Ring.next c.pktIdx := by
  apply Fin.ext
  show (c.pktIdx.val + 1) % 256 % 256 = (c.pktIdx.val + 1) % 256
  omega

theorem Keeps.regPkt (h : Keeps c journal) (hp : 0 ≤ packet) :
    Keeps (c.regPkt packet) (some packet :: journal) where
  recalls := by
    have hlog : (c.regPkt packet).pktLog.get = Function.update c.pktLog.get c.pktIdx packet := by
      funext j
      rw [Function.update_apply, Conn.regPkt_get]
      simp only [eq_comm]
    rw [Conn.regPkt_idx, hlog]
    exact h.recalls.push (some packet)
  nonneg := by
    intro p hmem
    rcases List.mem_cons.mp hmem with heq | hmem
    · rw [Option.some.inj heq]
      exact hp
    · exact h.nonneg p hmem

/-- The first occurrence of an element is replaced where it is. -/
theorem replace_eq_set {α : Type*} [BEq α] [LawfulBEq α] {a b : α} {l : List α} {j : ℕ} (hj : l[j]? = some a)
    (hbefore : ∀ k, k < j → l[k]? ≠ some a) : l.replace a b = l.set j b := by
  induction l generalizing j with
  | nil => simp at hj
  | cons x l ih =>
    cases j with
    | zero =>
      obtain rfl : x = a := by simpa using hj
      rw [List.replace_cons_self, List.set_cons_zero]
    | succ j =>
      have hx : a ≠ x := fun e => hbefore 0 (Nat.succ_pos j) (by rw [e, List.getElem?_cons_zero])
      rw [List.getElem?_cons_succ] at hj
      rw [List.replace_cons, beq_eq_false_iff_ne.mpr hx, List.set_cons_succ]
      dsimp only
      rw [ih hj fun k hk hget => hbefore (k + 1) (by omega) (by rwa [List.getElem?_cons_succ])]

/-- The entry that a scan finds is the newest of the packet in the journal, or
    the packet is not in the journal. -/
theorem Keeps.replace_eq (h : Keeps c journal) {j : ℕ} (hj : j < pktLogSz)
    (hget : c.pktLog.get (Ring.back c.pktIdx j) = packet)
    (hbefore : ∀ k, k < j → c.pktLog.get (Ring.back c.pktIdx k) ≠ packet) :
    journal.replace (some packet) none = journal.set j none := by
  have hnewest : ∀ k, k < j → journal[k]? ≠ some (some packet) := fun k hk hx =>
    hbefore k hk (h.recalls k (by omega) _ hx)
  cases hx : journal[j]? with
  | none =>
    -- a slot that was not written since the reset
    have hlen := List.getElem?_eq_none_iff.mp hx
    have hnot : some packet ∉ journal := by
      intro hmem
      obtain ⟨k, hk⟩ := List.mem_iff_getElem?.mp hmem
      have hlt := (List.getElem?_eq_some_iff.mp hk).1
      exact hnewest k (by omega) hk
    rw [List.replace_of_not_mem hnot, List.set_eq_of_length_le hlen]
  | some e =>
    have he : logEntry e = packet := (h.recalls j hj e hx).symm.trans hget
    cases e with
    | none =>
      -- the mark of a cleared entry
      have hnot : some packet ∉ journal := by
        intro hmem
        have hnonneg := h.nonneg packet hmem
        have hmark : (-1 : ℤ) = packet := he
        omega
      obtain ⟨hlt, hnone⟩ := List.getElem?_eq_some_iff.mp hx
      rw [List.replace_of_not_mem hnot]
      conv_rhs => rw [← hnone]
      rw [List.set_getElem_self]
    | some p =>
      obtain rfl : p = packet := he
      exact replace_eq_set hx hnewest

/-- The link that is charged loses the entry, its journal the registration. -/
theorem Keeps.clearSlot (h : Keeps c journal) (hfind : c.findPkt packet = some i) :
    Keeps (c.clearSlot i) (journal.replace (some packet) none) := by
  obtain ⟨j, hj, rfl, hget, hbefore⟩ := Conn.findPkt_newest hfind
  have hj : j < pktLogSz := hj.trans inSight_lt
  have hclear : (c.clearSlot (Ring.back c.pktIdx j)).pktLog.get =
      Function.update c.pktLog.get (Ring.back c.pktIdx j) (-1) := by
    funext k
    rw [Conn.clearSlot_get, Function.update_apply]
    simp only [eq_comm]
  refine ⟨?_, fun p hmem => ?_⟩
  · rw [h.replace_eq hj hget hbefore, hclear]
    exact h.recalls.set hj none
  · rw [h.replace_eq hj hget hbefore] at hmem
    rcases List.mem_or_eq_of_mem_set hmem with hmem | heq
    · exact h.nonneg p hmem
    · cases heq

theorem Keeps.registerSrtAck (h : Keeps c journal) (ack : ℤ) :
    Keeps (c.registerSrtAck ack) (settleBelow ack journal) where
  recalls := by
    rw [(c.registerSrtAck_frame ack).1]
    refine h.recalls.mapIdx fun j hj e he => ?_
    have hsight : Ring.back c.pktIdx j ≠ c.pktIdx ↔ j < inSight := by
      rw [Ne, Ring.back_eq_self_iff c.pktIdx hj, inSight]
      omega
    rw [Conn.registerSrtAck_get, he]
    simp only [hsight]
    by_cases hj : j < inSight
    · cases e with
      | none => simp [logEntry, hj]
      | some p =>
        by_cases hp : ack ≤ p
        · simp [logEntry, Option.filter, hp, hj, not_lt.mpr hp]
        · simp [logEntry, Option.filter, hp, hj, not_le.mp hp]
    · simp [hj]
  nonneg := by
    intro p hmem
    obtain ⟨j, hj, heq⟩ := List.mem_mapIdx.mp hmem
    have hp : journal[j] = some p := by
      split_ifs at heq
      · exact (Option.filter_eq_some_iff.mp heq).1
      · exact heq
    exact h.nonneg p (hp ▸ List.getElem_mem hj)

/-- **Every call keeps the logs in step with the journals.** -/
theorem keeps_kept : KeptBy Keeps LinkCall.enter := by
  intro b k hnodup hk hfresh h
  refine h.call keeps_readsLog hnodup ?_
  cases k with
  | link ref change =>
    cases change with
    | regPkt packet => exact ⟨_, rfl, fun c hc => hc.regPkt hk⟩
    | reset => exact ⟨_, rfl, fun c => keeps_nil c.wipe⟩
    | selected | sendFailed | heard | openSocket | keep => rfl
  | registerSrtAck ack => exact fun c ref hc => hc.registerSrtAck ack
  | registerNak packet | registerSrtlaAck packet =>
    exact settles_charged (P := Keeps) (g := fun journal => journal.replace (some packet) none)
      fun c i journal hfind hc => hc.clearSlot hfind
  | create ref src =>
    refine ⟨?_, fun c hc => Function.update_of_ne ?_ _ _⟩
    · show Keeps _ (Function.update b.accounts ref [] ref)
      rw [Function.update_self]
      exact keeps_nil _
    · exact fun e => hfresh ref src rfl (e ▸ List.mem_map_of_mem hc)
  | mark | sweep => rfl

/-! ## Runs -/

/-- A run of the sender with its journals, which are empty at the start. -/
abbrev recorded (s₀ : State) : Lts (Following (List (Option ℤ))) Op :=
  followed LinkCall.enter (fun _ => []) s₀

variable {cfg : Config} {s₀ : State} {a : Following (List (Option ℤ))}

/-- **In every run the log of every link holds the newest entries of its journal.** -/
theorem keeps_reachable (h₀ : start cfg = some s₀) (h : (recorded s₀).Reachable a) :
    a.state.Distinct ∧ Booked Keeps a.state.conns a.accounts :=
  keeps_kept.reachable h₀ (fun c _ => keeps_nil c) h

/-! ## Which NAKs are charged -/

/-- `register_nak` finds the packet in the log of `c` or an earlier link, clears
    the entry and charges the link. -/
def NakFinds (packet : ℤ) (conns : List Conn) (c : Conn) : Prop :=
  ∃ before x after i, conns = before ++ x :: after ∧ c ∈ x :: after ∧ x.pktLog.get i = packet ∧
    registerNak packet conns = before ++ x.nakAt i :: after

theorem registerNak_cases (packet : ℤ) (conns : List Conn) :
    ((∀ c ∈ conns, ¬ (c.findPkt packet).isSome) ∧ registerNak packet conns = conns) ∨
      ∃ before x after i, conns = before ++ x :: after ∧ (∀ c ∈ before, ¬ (c.findPkt packet).isSome) ∧
        x.findPkt packet = some i ∧ registerNak packet conns = before ++ x.nakAt i :: after := by
  induction conns with
  | nil => exact Or.inl ⟨fun c hc => absurd hc List.not_mem_nil, rfl⟩
  | cons c conns ih =>
    cases hfind : c.findPkt packet with
    | some i =>
      refine Or.inr ⟨[], c, conns, i, rfl, fun d hd => absurd hd List.not_mem_nil, hfind, ?_⟩
      rw [registerNak, hfind]
      rfl
    | none =>
      have hnone : ¬ (c.findPkt packet).isSome := by simp [hfind]
      have hskip : registerNak packet (c :: conns) = c :: registerNak packet conns := by
        rw [registerNak, hfind]
      rcases ih with ⟨hall, heq⟩ | ⟨before, x, after, i, rfl, hbefore, hx, heq⟩
      · exact Or.inl ⟨List.forall_mem_cons.mpr ⟨hnone, hall⟩, by rw [hskip, heq]⟩
      · exact Or.inr ⟨c :: before, x, after, i, rfl, List.forall_mem_cons.mpr ⟨hnone, hbefore⟩, hx,
          by rw [hskip, heq]; rfl⟩

/-- Clearing an entry is a change. -/
theorem Conn.nakAt_ne (hget : c.pktLog.get i = packet) (hp : packet ≠ -1) : c.nakAt i ≠ c := by
  intro heq
  have hlog : (c.clearSlot i).pktLog.get i = c.pktLog.get i := by
    conv_rhs => rw [← heq]
    rfl
  rw [Conn.clearSlot_get, if_pos rfl, hget] at hlog
  exact hp hlog.symm

/-- A packet is found iff a scan of the log of `c` or of an earlier link finds it. -/
theorem nakFinds_iff (hp : packet ≠ -1) :
    NakFinds packet conns c ↔
      ∃ before x after, conns = before ++ x :: after ∧ c ∈ x :: after ∧ (x.findPkt packet).isSome := by
  constructor
  · rintro ⟨before, x, after, i, hconns, hc, hget, hnak⟩
    have hne := Conn.nakAt_ne hget hp
    rcases registerNak_cases packet conns with ⟨_, hsame⟩ | ⟨before', y, after', j, hconns', _, hy, hnak'⟩
    · rw [hnak, hconns] at hsame
      exact absurd (List.cons.inj (List.append_cancel_left hsame)).1 hne
    · refine ⟨before', y, after', hconns', ?_, by rw [hy]; rfl⟩
      rw [hconns] at hconns'
      rw [hnak] at hnak'
      rcases List.append_eq_append_iff.mp hconns' with ⟨m, rfl, hm⟩ | ⟨m, rfl, hm⟩
      · cases m with
        | nil => rwa [← List.nil_append (y :: after'), ← hm]
        | cons z m =>
          -- `x` would be both passed over and charged
          obtain ⟨rfl, _⟩ := List.cons.inj hm
          rw [List.append_assoc] at hnak'
          exact absurd (List.cons.inj (List.append_cancel_left hnak')).1 hne
      · rw [hm]
        exact List.mem_append_right m hc
  · rintro ⟨before, x, after, hconns, hc, hx⟩
    rcases registerNak_cases packet conns with ⟨hall, _⟩ | ⟨before', y, after', j, hconns', hnone, hy, hnak⟩
    · exact absurd hx (hall x (hconns ▸ List.mem_append_right before List.mem_cons_self))
    · refine ⟨before', y, after', j, hconns', ?_, (Conn.findPkt_eq_some hy).2, hnak⟩
      rw [hconns] at hconns'
      rcases List.append_eq_append_iff.mp hconns' with ⟨m, rfl, hm⟩ | ⟨m, rfl, hm⟩
      · cases m with
        | nil => rwa [← List.nil_append (y :: after'), ← hm]
        | cons z m =>
          obtain ⟨rfl, _⟩ := List.cons.inj hm
          exact absurd hx (hnone x (List.mem_append_right before List.mem_cons_self))
      · rw [hm]
        exact List.mem_append_right m hc

/-- The log of `c` has an outstanding packet in sight iff its journal has it there. -/
theorem Keeps.findPkt_iff (h : Keeps c journal) (hp : some packet ∈ journal) :
    (c.findPkt packet).isSome ↔ some packet ∈ journal.take inSight := by
  have htake : some packet ∈ journal.take inSight ↔ ∃ k, k < inSight ∧ journal[k]? = some (some packet) := by
    rw [List.mem_iff_getElem?]
    simp only [List.getElem?_take, Option.ite_none_right_eq_some]
  rw [htake]
  constructor
  · intro hfind
    obtain ⟨i, hi⟩ := Option.isSome_iff_exists.mp hfind
    obtain ⟨k, hk, rfl, hget, _⟩ := Conn.findPkt_newest hi
    cases hx : journal[k]? with
    | none =>
      -- the slot is older than all of the journal
      have hlen := List.getElem?_eq_none_iff.mp hx
      obtain ⟨j, hj⟩ := List.mem_iff_getElem?.mp hp
      have hlt := (List.getElem?_eq_some_iff.mp hj).1
      exact ⟨j, by omega, hj⟩
    | some e =>
      have he : logEntry e = packet := (h.recalls k (hk.trans inSight_lt) e hx).symm.trans hget
      cases e with
      | none =>
        have hnonneg := h.nonneg packet hp
        have hmark : (-1 : ℤ) = packet := he
        omega
      | some p =>
        obtain rfl : p = packet := he
        exact ⟨k, hk, hx⟩
  · rintro ⟨k, hk, hx⟩
    rw [Conn.findPkt_isSome_iff]
    have hk' : k < pktLogSz := hk.trans inSight_lt
    refine ⟨Ring.back c.pktIdx k, ?_, h.recalls k hk' _ hx⟩
    rw [Ne, Ring.back_eq_self_iff c.pktIdx hk']
    unfold inSight at hk
    omega

theorem nakFinds_iff_of_kept {journals : Journals} (h : Booked Keeps conns journals) (hc : c ∈ conns)
    (hp : some packet ∈ journals c.ref) :
    NakFinds packet conns c ↔ some packet ∈ (journals c.ref).take inSight ∨
      ∃ before x after, conns = before ++ x :: after ∧ c ∈ after ∧
        ∃ i, i ≠ x.pktIdx ∧ x.pktLog.get i = packet := by
  have hnonneg := (h c hc).nonneg packet hp
  rw [nakFinds_iff (by omega), ← (h c hc).findPkt_iff hp]
  constructor
  · rintro ⟨before, x, after, hconns, hmem, hx⟩
    rcases List.mem_cons.mp hmem with rfl | hmem
    · exact Or.inl hx
    · exact Or.inr ⟨before, x, after, hconns, hmem, Conn.findPkt_isSome_iff.mp hx⟩
  · rintro (hx | ⟨before, x, after, hconns, hmem, hx⟩)
    · obtain ⟨before, after, hconns⟩ := List.append_of_mem hc
      exact ⟨before, c, after, hconns, List.mem_cons_self, hx⟩
    · exact ⟨before, x, after, hconns, List.mem_cons_of_mem x hmem, Conn.findPkt_isSome_iff.mpr hx⟩

/-- **The log remembers one packet less than it has room for.** At any moment of
    any run, between the calls of a step too, let `packet` be outstanding among the
    `PKT_LOG_SZ` newest registrations of `c`. A NAK of it is charged to `c` or an
    earlier link iff it is outstanding among the `PKT_LOG_SZ - 1` newest, or an
    earlier link has it in an entry other than the one at `pkt_idx`. -/
theorem nak_found_iff (h₀ : start cfg = some s₀) (h : (recorded s₀).Reachable a) {op : Op}
    {ks ks' : List LinkCall} (hcalls : a.state.calls op = ks ++ ks')
    (hc : c ∈ (a.books.calls LinkCall.enter ks).conns)
    (hp : some packet ∈ ((a.books.calls LinkCall.enter ks).accounts c.ref).take pktLogSz) :
    NakFinds packet (a.books.calls LinkCall.enter ks).conns c ↔
      some packet ∈ ((a.books.calls LinkCall.enter ks).accounts c.ref).take (pktLogSz - 1) ∨
        ∃ before x after, (a.books.calls LinkCall.enter ks).conns = before ++ x :: after ∧ c ∈ after ∧
          ∃ i, i ≠ x.pktIdx ∧ x.pktLog.get i = packet :=
  nakFinds_iff_of_kept (keeps_kept.between_calls h₀ (fun c _ => keeps_nil c) h hcalls) hc
    (List.mem_of_mem_take hp)

/-! ## A full log -/

/-- The journal of a link on which the packets `1 … n` were sent. -/
def sentJournal : ℕ → List (Option ℤ)
  | 0 => []
  | n + 1 => some (n + 1 : ℕ) :: sentJournal n

theorem sentJournal_getElem? {n k : ℕ} (hk : k < n) :
    (sentJournal n)[k]? = some (some ((n - k : ℕ) : ℤ)) := by
  induction n generalizing k with
  | zero => omega
  | succ n ih =>
    cases k with
    | zero => rfl
    | succ k =>
      rw [sentJournal, List.getElem?_cons_succ, ih (by omega), Nat.add_sub_add_right]

/-- A sender with one link can send the packets `1 … n` on it. -/
theorem exists_sent (n : ℕ) (hn : n < 2 ^ 31) :
    ∃ s₀ a c, start oneLink = some s₀ ∧ (recorded s₀).Reachable a ∧ a.state.Alone c ∧
      a.accounts 0 = sentJournal n := by
  induction n with
  | zero =>
    obtain ⟨s₀, a, h₀, hreach, halone, haccounts⟩ := followed_reg3 LinkCall.enter fun _ => []
    exact ⟨s₀, a, _, h₀, hreach, halone, congrFun haccounts 0⟩
  | succ n ih =>
    obtain ⟨s₀, a, c, h₀, hreach, halone, hjournal⟩ := ih (by omega)
    obtain ⟨a', hreach', halone', haccounts⟩ := followed_data hreach halone hn
    refine ⟨s₀, a', _, h₀, hreach', halone', ?_⟩
    rw [haccounts, sentJournal, ← hjournal]
    rfl

/-- The oldest packet that a scan visits is found: packet 1 of 255. -/
theorem nak_found_in_sight :
    ∃ s₀ a c, start oneLink = some s₀ ∧ (recorded s₀).Reachable a ∧ a.state.conns = [c] ∧
      (a.accounts c.ref).length = 255 ∧ (a.accounts c.ref).getLast? = some (some 1) ∧
      NakFinds 1 a.state.conns c := by
  obtain ⟨s₀, a, c, h₀, hreach, halone, hjournal⟩ := exists_sent 255 (by decide)
  rw [← halone.ready.ref] at hjournal
  have hlen : (sentJournal 255).length = 255 := by decide +kernel
  have hone : (sentJournal 255)[254]? = some (some 1) := sentJournal_getElem? (by decide)
  have hmem : some 1 ∈ (a.accounts c.ref).take (pktLogSz - 1) := by
    rw [hjournal, List.take_of_length_le (show (sentJournal 255).length ≤ pktLogSz - 1 from hlen.le)]
    exact List.mem_of_getElem? hone
  have hcalls : a.state.calls reg3 = [] ++ a.state.calls reg3 := (List.nil_append _).symm
  have hc : c ∈ a.state.conns := halone.conns ▸ List.mem_singleton_self c
  refine ⟨s₀, a, c, h₀, hreach, halone.conns, by rw [hjournal, hlen], ?_, ?_⟩
  · rw [hjournal, List.getLast?_eq_getElem?, hlen]
    exact hone
  · refine (nak_found_iff h₀ hreach hcalls hc ?_).mpr (Or.inl hmem)
    exact List.take_subset_take_left _ (Nat.sub_le _ _) hmem

/-- **The oldest packet of a full log is forgotten.** A sender with one link sends
    the packets 1 to 256. All are outstanding and in the log, but the NAK of packet 1
    finds nothing. -/
theorem oldest_forgotten :
    ∃ s₀ a c, start oneLink = some s₀ ∧ (recorded s₀).Reachable a ∧ a.state.conns = [c] ∧
      some 1 ∈ (a.accounts c.ref).take pktLogSz ∧ (∃ i, c.pktLog.get i = 1) ∧
      ¬ NakFinds 1 a.state.conns c ∧ registerNak 1 a.state.conns = a.state.conns := by
  obtain ⟨s₀, a, c, h₀, hreach, ⟨_, _, hconns, hc⟩, hjournal⟩ := exists_sent 256 (by decide)
  have hkept := (keeps_reachable h₀ hreach).2
  have hmem : c ∈ a.state.conns := hconns ▸ List.mem_singleton_self c
  have hone : (a.accounts c.ref)[255]? = some (some 1) := by
    rw [hc.ref, hjournal, sentJournal_getElem? (by decide)]
    rfl
  have hnone : ¬ (c.findPkt 1).isSome := by
    rw [(hkept c hmem).findPkt_iff (List.mem_of_getElem? hone), List.mem_iff_getElem?]
    rintro ⟨k, hk⟩
    rw [List.getElem?_take, Option.ite_none_right_eq_some] at hk
    obtain ⟨hlt, hk⟩ := hk
    replace hlt : k < 255 := hlt
    replace hk : (a.accounts c.ref)[k]? = some (some 1) := hk
    rw [hc.ref, hjournal, sentJournal_getElem? (by omega), Option.some.injEq, Option.some.injEq] at hk
    omega
  have hsame : registerNak 1 a.state.conns = a.state.conns := by
    rcases registerNak_cases 1 a.state.conns with ⟨_, heq⟩ | ⟨before, x, after, i, heq, _, hx, _⟩
    · exact heq
    · have hxc : x ∈ [c] := hconns ▸ heq ▸ List.mem_append_right before List.mem_cons_self
      rw [List.mem_singleton.mp hxc] at hx
      exact absurd (by rw [hx]; rfl) hnone
  refine ⟨s₀, a, c, h₀, hreach, hconns, List.mem_of_getElem? (i := 255) ?_,
    ⟨_, (hkept c hmem).recalls 255 (by decide) _ hone⟩, ?_, hsame⟩
  · rw [List.getElem?_take, if_pos (by decide)]
    exact hone
  rintro ⟨before, x, after, i, heq, _, hget, hnak⟩
  rw [hsame, heq] at hnak
  exact Conn.nakAt_ne hget (by decide) (List.cons.inj (List.append_cancel_left hnak)).1.symm

end Srtla.Sender
