import Srtla.Sender.Calls

/-!
# The window of a link stays in range (`src/sender.cpp:155-327`, `:622-661`)

`register_srtla_ack` adds up to 29 to the window of the link that carried the
packet and then 1 to the window of every link, but it clamps the sum only for
links that have heard from the receiver. What bounds the window of the others is
their log: each bonus uses up an entry that is not negative, a link that has not
heard from the receiver is never selected and so gets no new entries, and
256 bonuses on top of the initial window stay below the limit.

Results:
* `InRange`: the invariant, with the room left for the bonuses.
* `window_in_range`: it holds for every link in every run.
-/

namespace Srtla.Sender

open Lib

/-! ## The invariant -/

/-- The number of entries in sight that have not been cleared. -/
def Conn.entries (c : Conn) : ℕ := (c.logged fun q => 0 ≤ q).card

/-- The congestion state of a link. -/
structure Conn.InRange (c : Conn) : Prop where
  low : windowMin * windowMult ≤ c.window
  high : c.window ≤ windowMax * windowMult
  inFlight : 0 ≤ c.inFlightPkts
  /-- The window of a link that is not clamped has room for a bonus per entry. -/
  room : c.lastRcvd = 0 → c.window + (windowIncr - 1) * c.entries ≤ windowMax * windowMult

variable {c : Conn} {i : Fin pktLogSz} {conns : List Conn} {packet : ℤ}

theorem Conn.entries_clearSlot_le : (c.clearSlot i).entries ≤ c.entries :=
  Conn.card_logged_clearSlot_le (by decide)

theorem Conn.entries_clearSlot (hfind : c.findPkt packet = some i) (hpacket : 0 ≤ packet) :
    (c.clearSlot i).entries + 1 = c.entries :=
  Conn.card_logged_clearSlot (by decide) hfind hpacket

theorem Conn.entries_registerSrtAck_le (c : Conn) (ack : ℤ) :
    (c.registerSrtAck ack).entries ≤ c.entries := by
  unfold Conn.entries
  rw [Conn.logged_registerSrtAck (by decide)]
  refine Finset.card_le_card fun j hj => ?_
  rw [Conn.mem_logged] at hj ⊢
  exact ⟨hj.1, hj.2.1⟩

theorem inRange_create (ref : ℕ) (src : Block 4) : (Conn.create ref src).InRange := by
  have hcard : (Conn.create ref src).entries ≤ 256 := by
    have h := Finset.card_le_univ ((Conn.create ref src).logged fun q => 0 ≤ q)
    rwa [Fintype.card_fin] at h
  have hwindow : (Conn.create ref src).window = 20000 := rfl
  refine ⟨?_, ?_, le_rfl, fun _ => ?_⟩
  all_goals
    rw [hwindow]
    simp only [windowMin, windowMult, windowIncr, windowMax]
    omega

theorem inRange_wipe (c : Conn) : c.wipe.InRange := by
  have hentries : c.wipe.entries = 0 :=
    Finset.card_eq_zero.mpr (Conn.logged_wipe (by decide))
  refine ⟨le_rfl, show windowMin * windowMult ≤ windowMax * windowMult by decide, le_rfl, fun _ => ?_⟩
  rw [hentries]
  show windowMin * windowMult + (windowIncr - 1) * ((0 : ℕ) : ℤ) ≤ windowMax * windowMult
  decide

/-! ## NAKs and SRT ACKs -/

theorem Conn.InRange.nak (h : c.InRange) (packet : ℤ) : (c.nak packet).InRange := by
  unfold Conn.nak
  split
  · rename_i i _
    have hentries : (c.clearSlot i).entries ≤ c.entries := Conn.entries_clearSlot_le
    have hlow := h.low
    have hhigh := h.high
    simp only [windowMin, windowMax, windowMult] at hlow hhigh
    refine ⟨le_max_right _ _, max_le ?_ (by decide), h.inFlight, fun hrcvd => ?_⟩
    · simp only [windowDecr, windowMax, windowMult]
      omega
    · have hroom := h.room hrcvd
      show max _ _ + _ * ((c.clearSlot i).entries : ℤ) ≤ _
      simp only [windowMin, windowMax, windowMult, windowIncr, windowDecr] at hroom ⊢
      omega
  · exact h

theorem Conn.InRange.registerSrtAck (h : c.InRange) (ack : ℤ) : (c.registerSrtAck ack).InRange := by
  obtain ⟨_, hwindow, hrcvd, hcount⟩ := c.registerSrtAck_frame ack
  refine ⟨hwindow ▸ h.low, hwindow ▸ h.high, hcount, fun h0 => ?_⟩
  have hentries := c.entries_registerSrtAck_le ack
  have hroom := h.room (hrcvd ▸ h0)
  rw [hwindow]
  simp only [windowIncr] at hroom ⊢
  omega

/-! ## SRTLA ACKs -/

/-- What is left of the invariant on the link that `register_srtla_ack` credits
    until the links have grown. -/
structure Conn.Credited (c : Conn) : Prop where
  low : windowMin * windowMult ≤ c.window
  inFlight : 0 ≤ c.inFlightPkts
  room : c.lastRcvd = 0 → c.window + (windowIncr - 1) * c.entries ≤ windowMax * windowMult

theorem Conn.InRange.credited (h : c.InRange) : c.Credited := ⟨h.low, h.inFlight, h.room⟩

/-- The bonus is paid for by the entry that is cleared. -/
theorem Conn.InRange.ack (h : c.InRange) (hpacket : 0 ≤ packet) : (c.ack packet).Credited := by
  unfold Conn.ack
  split
  · rename_i i hfind
    obtain ⟨hlog, hidx, hrcvd⟩ := c.ackAt_frame i
    have hentries : (c.ackAt i).entries + 1 = c.entries := by
      rw [Conn.entries, Conn.logged_congr hlog hidx]
      exact Conn.entries_clearSlot hfind hpacket
    obtain ⟨hge, hle⟩ := c.ackAt_window i
    have hflight := h.inFlight
    refine ⟨h.low.trans hge, ?_, fun h0 => ?_⟩
    · rw [c.ackAt_inFlight i]
      split_ifs <;> omega
    · have hroom := h.room (hrcvd ▸ h0)
      simp only [windowIncr] at hroom hle ⊢
      omega
  · exact h.credited

theorem Conn.Credited.grow (h : c.Credited) : c.grow.InRange := by
  have hlow := h.low
  unfold Conn.grow
  split_ifs with hrcvd
  · refine ⟨le_min ?_ (by decide), min_le_right _ _, h.inFlight, fun h0 => absurd h0 hrcvd⟩
    omega
  · have hroom := h.room (not_not.mp hrcvd)
    refine ⟨hlow, ?_, h.inFlight, h.room⟩
    simp only [windowIncr] at hroom
    omega

/-! ## Calls -/

/-- What a call has to respect: a packet is registered only on a link that has
    been heard from, the time of arrival is not the mark of a link that has not
    been heard from, and a cleared entry is not acknowledged. -/
def LinkCall.Respects (conns : List Conn) : LinkCall → Prop
  | .link ref (.regPkt _) => ∀ c ∈ conns, c.ref = ref → c.lastRcvd ≠ 0
  | .link _ (.heard ts) => ts ≠ 0
  | .registerSrtlaAck ack => 0 ≤ ack
  | _ => True

theorem inRange_change {ref : ℕ} {change : LinkChange}
    (hk : LinkCall.Respects conns (.link ref change)) (hc : c ∈ conns) (href : c.ref = ref)
    (h : c.InRange) : (change.apply c).InRange := by
  cases change with
  | selected t => exact ⟨h.low, h.high, h.inFlight, h.room⟩
  | regPkt packet =>
    have hflight := h.inFlight
    refine ⟨h.low, h.high, ?_, fun h0 => absurd h0 (hk c hc href)⟩
    show 0 ≤ c.inFlightPkts + 1
    omega
  | sendFailed => exact ⟨h.low, h.high, h.inFlight, fun h0 => absurd h0 one_ne_zero⟩
  | heard ts => exact ⟨h.low, h.high, h.inFlight, fun h0 => absurd h0 hk⟩
  | openSocket env =>
    show (Sender.openSocket [] c env).2.2.InRange
    unfold Sender.openSocket
    dsimp only
    split_ifs <;> exact ⟨h.low, h.high, h.inFlight, h.room⟩
  | reset => exact inRange_wipe c
  | keep => exact ⟨h.low, h.high, h.inFlight, h.room⟩

theorem preserves_inRange {k : LinkCall} (hk : k.Respects conns) : k.Preserves Conn.InRange conns := by
  cases k with
  | link ref change => exact fun c hc href h => inRange_change hk hc href h
  | registerSrtAck ack => exact fun c h => h.registerSrtAck ack
  | registerNak packet => exact fun c h => h.nak packet
  | registerSrtlaAck ack => exact fun c h => ⟨(h.ack hk).grow, h.credited.grow⟩
  | mark => exact fun c h => ⟨h.low, h.high, h.inFlight, h.room⟩
  | create ref src => exact inRange_create ref src
  | sweep => trivial

/-- **Every call keeps the links in range.** -/
theorem inRange_call {k : LinkCall} (hnodup : (conns.map Conn.ref).Nodup) (hk : k.Respects conns)
    (h : ∀ c ∈ conns, c.InRange) : ∀ c ∈ k.apply conns, c.InRange :=
  (preserves_inRange hk).forall_apply hnodup h

theorem inRange_calls {ks : List LinkCall} (hnodup : (conns.map Conn.ref).Nodup)
    (hfresh : Fresh ks conns) (hks : ∀ k ∈ ks, ∀ conns, k.Respects conns)
    (h : ∀ c ∈ conns, c.InRange) : ∀ c ∈ applyCalls ks conns, c.InRange :=
  (applyCalls_invariant (I := fun conns => ∀ c ∈ conns, c.InRange)
    (G := fun k => ∀ conns, k.Respects conns)
    (fun _ _ hnodup hk h => inRange_call hnodup (hk _) h) hnodup hfresh hks h).1

/-! ## Runs -/

/-- The number that a call acknowledges or reports lost. -/
def LinkCall.number : LinkCall → Option ℤ
  | .registerSrtAck n | .registerNak n | .registerSrtlaAck n => some n
  | _ => none

/-- The clock is past `CONN_TIMEOUT`, and the numbers that are acknowledged or
    reported lost are sequence numbers: as an `int32_t`, a word below 2^31 is not
    negative. -/
def Op.Sane : Op → Prop
  | .srtData env => ∀ t ∈ env.seconds, connTimeout < t
  | .srtlaData _ buf n ts _ fuel =>
    connTimeout < ts ∧ ∀ k ∈ frameCalls buf n fuel, ∀ p ∈ k.number, 0 ≤ p
  | .updateConns _ | .housekeeping _ => True

theorem respects_setupCalls (s : State) (lines : List (Option (Block 4))) :
    ∀ k ∈ setupCalls s lines, ∀ conns, k.Respects conns := by
  intro k hk conns
  rcases setupCalls_cases hk with ⟨ref, src, rfl⟩ | ⟨ref, rfl⟩
  · trivial
  · trivial

variable {s : State} {op : Op} {r : State × List Effect}

/-- The calls of a handler other than `handle_srt_data` respect the links in any state. -/
theorem respects_calls (s : State) (hsane : op.Sane) (hop : ∀ env, op ≠ .srtData env) :
    ∀ k ∈ s.calls op, ∀ conns, k.Respects conns := by
  intro k hk conns
  cases made_of_mem_calls hk with
  | data => exact absurd rfl (hop _)
  | heard _ _ _ ts =>
    have hts := hsane.1
    show ts ≠ 0
    simp only [connTimeout] at hts
    omega
  | frame _ _ _ hmem =>
    have hnum := hsane.2 k hmem
    obtain ⟨p, rfl | rfl | rfl⟩ := frameCalls_cases hmem
    · trivial
    · trivial
    · exact hnum p rfl
  | setup hmem => exact respects_setupCalls _ _ k hmem conns
  | mark | sweep | openSocket | reset => trivial

/-- `handle_srt_data` registers a packet only on a link that is not timed out,
    which past `CONN_TIMEOUT` is a link that has been heard from. -/
theorem inRange_data (h : s.Distinct) {env : SrtDataEnv} (hclock : ∀ t ∈ env.seconds, connTimeout < t)
    (hs : ∀ c ∈ s.conns, c.InRange) : ∀ c ∈ applyCalls (dataCalls s env) s.conns, c.InRange := by
  unfold dataCalls
  cases hsel : selectConn s.conns env.seconds with
  | none => exact hs
  | some c =>
    obtain ⟨t, ht, x, hx, hout, rfl⟩ := selectConn_spec hsel
    have hrcvd : x.lastRcvd ≠ 0 := by
      have hnow := hclock t ht
      have hout := of_decide_eq_false hout
      simp only [connTimeout] at hnow hout
      omega
    have hselected : ∀ c ∈ LinkCall.apply s.conns (.link x.ref (.selected t)), c.InRange :=
      inRange_call h.refs trivial hs
    have hnodup := LinkCall.nodup_apply (k := .link x.ref (.selected t)) h.refs (fun _ _ => nofun)
    have hheard : ∀ c ∈ LinkCall.apply s.conns (.link x.ref (.selected t)),
        c.ref = x.ref → c.lastRcvd ≠ 0 := by
      intro c hc href
      obtain ⟨y, hy, ⟨hk, rfl⟩ | ⟨hk, rfl⟩⟩ := Keyed.mem_modify hc
      · rw [Keyed.eq_of_key_eq h.refs hy hx hk]
        exact hrcvd
      · exact absurd href hk
    dsimp only
    show ∀ c ∈ applyCalls _ (LinkCall.apply s.conns (.link x.ref (.selected t))), c.InRange
    split_ifs
    · exact inRange_call (k := .link x.ref (.regPkt _)) hnodup hheard hselected
    · exact hselected
    · exact inRange_call (k := .link x.ref .sendFailed) hnodup trivial hselected

theorem inRange_step (h : s.Distinct) (hsane : op.Sane) (hstep : step s op = some r)
    (hs : ∀ c ∈ s.conns, c.InRange) : ∀ c ∈ r.1.conns, c.InRange := by
  rw [step_calls h hstep]
  by_cases hop : ∃ env, op = .srtData env
  · obtain ⟨env, rfl⟩ := hop
    exact inRange_data h hsane hs
  · exact inRange_calls h.refs (fresh_calls h op)
      (respects_calls s hsane fun env e => hop ⟨env, e⟩) hs

theorem inRange_start {cfg : Config} (h : start cfg = some s) : ∀ c ∈ s.conns, c.InRange := by
  rw [(start_calls h).1]
  refine inRange_calls List.nodup_nil (fresh_startCalls cfg) (fun k hk => ?_)
    fun c hc => absurd hc List.not_mem_nil
  rcases List.mem_append.mp hk with hk | hk
  · exact respects_setupCalls _ _ k hk
  · obtain ⟨c, _, rfl⟩ := List.mem_map.mp hk
    exact fun _ => trivial

/-- **The window stays in range.** In every run in which the clock is past
    `CONN_TIMEOUT` and only sequence numbers are acknowledged or reported lost,
    every link has `WINDOW_MIN * WINDOW_MULT <= window <= WINDOW_MAX * WINDOW_MULT`
    and a number of packets in flight that is not negative. -/
theorem window_in_range {cfg : Config} {s₀ : State} (h₀ : start cfg = some s₀)
    (h : (sender s₀).ReachableIf (fun _ op => op.Sane) s) :
    ∀ c ∈ s.conns, windowMin * windowMult ≤ c.window ∧ c.window ≤ windowMax * windowMult ∧
      0 ≤ c.inFlightPkts := by
  have hinv : s.Distinct ∧ ∀ c ∈ s.conns, c.InRange := by
    refine Lts.reachableIf_invariant (I := fun s => s.Distinct ∧ ∀ c ∈ s.conns, c.InRange)
      ⟨(start_calls h₀).2, inRange_start h₀⟩ ?_ h
    rintro s op s' ⟨hd, hs⟩ hsane ⟨effects, hstep⟩
    exact ⟨hd.step hstep, inRange_step hd hsane hstep hs⟩
  intro c hc
  have hr := hinv.2 c hc
  exact ⟨hr.low, hr.high, hr.inFlight⟩

/-- The numbers in a datagram are those of the calls after the link is heard from. -/
theorem sane_of_calls {buf : Mem} {n : ℤ} {ks : List LinkCall}
    (hcalls : s.calls (.srtlaData 0 buf n 100 (fun _ => 0) 0) = .link 0 (.heard 100) :: ks)
    (h : ∀ k ∈ ks, ∀ p ∈ k.number, 0 ≤ p) : (Op.srtlaData 0 buf n 100 (fun _ => 0) 0).Sane := by
  replace hcalls : datagramCalls 0 buf n 100 0 = .link 0 (.heard 100) :: ks := hcalls
  unfold datagramCalls at hcalls
  split_ifs at hcalls
  have hframe : frameCalls buf n 0 = ks := List.tail_eq_of_cons_eq hcalls
  exact ⟨by decide, hframe ▸ h⟩

theorem sane_data (n : ℕ) : (Op.srtData (dataPacket n)).Sane := by
  intro t ht
  cases ht
  decide

/-- The link that has carried the packets 1 and 2, and lost packet 1. -/
def countedConn : Conn :=
  Conn.nakAt
    { Conn.regPkt { Conn.regPkt { oneLinkConn with lastRcvd := 100, lastSent := 100 } 1 with
        lastSent := 100 } 2 with lastRcvd := 100 } 0

/-- A sender with one link registers the packets 1 and 2 on it, gets a NAK of the
    first and an SRTLA ACK of the second. -/
theorem window_in_range_counted :
    ∃ s₀ s c, start oneLink = some s₀ ∧ (sender s₀).ReachableIf (fun _ op => op.Sane) s ∧
      s.conns = [c] ∧ c.window = 19901 ∧ c.inFlightPkts = 1 ∧
      windowMin * windowMult ≤ c.window ∧ c.window ≤ windowMax * windowMult ∧ 0 ≤ c.inFlightPkts := by
  obtain ⟨s₀, h₀, hconns₀, hexited₀⟩ := start_oneLink
  obtain ⟨r₁, hstep₁, halone₁⟩ := step_reg3 (start_calls h₀).2 hconns₀ hexited₀
  obtain ⟨r₂, hstep₂, halone₂⟩ := halone₁.step_data (n := 1) (by decide)
  obtain ⟨r₃, hstep₃, halone₃⟩ := halone₂.step_data (n := 2) (by decide)
  have hnak := calls_nakOf r₃.1 (show 1 < 2 ^ 31 by decide)
  obtain ⟨r₄, hstep₄, hdistinct₄, hexited₄, hconns₄⟩ := step_heard halone₃.distinct halone₃.running
    halone₃.conns rfl (by decide)
    (fun _ => Option.isSome_of_eq_some (nakIds_srtFrame (by decide))) hnak
  replace hconns₄ : r₄.1.conns = [countedConn] := by
    rw [hconns₄]
    rfl
  have hack := calls_srtlaAckOf r₄.1 (show 2 < 2 ^ 32 by decide)
  obtain ⟨r₅, hstep₅, -, -, hconns₅⟩ := step_heard hdistinct₄ hexited₄ hconns₄ rfl (by decide)
    (fun htype => absurd htype (by decide)) hack
  replace hconns₅ : r₅.1.conns = [(countedConn.ackAt 1).grow] := by
    rw [hconns₅]
    rfl
  have hreach₃ : (sender s₀).ReachableIf (fun _ op => op.Sane) r₃.1 :=
    .step (.step (.step .init (sane_of_calls (calls_reg3 s₀) (by simp)) ⟨_, hstep₁⟩)
      (sane_data 1) ⟨_, hstep₂⟩) (sane_data 2) ⟨_, hstep₃⟩
  have hreach₅ : (sender s₀).ReachableIf (fun _ op => op.Sane) r₅.1 :=
    .step (.step hreach₃ (sane_of_calls hnak (by simp [LinkCall.number])) ⟨_, hstep₄⟩)
      (sane_of_calls hack (by simp [LinkCall.number, toInt32])) ⟨_, hstep₅⟩
  have hmem : (countedConn.ackAt 1).grow ∈ r₅.1.conns := hconns₅ ▸ List.mem_singleton_self _
  exact ⟨s₀, _, _, h₀, hreach₅, hconns₅, rfl, rfl, window_in_range h₀ hreach₅ _ hmem⟩

end Srtla.Sender
