import Srtla.Sender.Accounts

/-!
# Who is charged for a loss or an acknowledgement (`src/sender.cpp:155-163`, `:256-302`)

A NAK and an SRTLA ACK are charged to the first link whose log has the number.
The log is to hold the packets the link carried, but it also holds two numbers
that no `reg_pkt` put there: `-1` marks a cleared entry, and the log of a new
link is what `calloc` left, zeros; only the reset of a failed link writes `-1`
into every entry. An SRTLA ACK with the word `0xFFFFFFFF` finds the mark, and a
NAK or an SRTLA ACK of packet 0 finds a slot that was never written.

`Ledger` is the account the log should keep: what was registered on a link and
has since been neither acknowledged, nor reported lost, nor cleared by an SRT
ACK, nor wiped by a reset.

Results:
* `covers_kept`: apart from 0 and -1, the log of a link has no number more often
  than its account.
* `charges_carriers_iff`: only carriers are charged for a number, in every run,
  iff the number is neither 0 nor -1.
* `charged_without_packet`: a sender that has sent nothing lowers a window.
-/

namespace Srtla.Sender

open Lib

/-! ## The account of a link -/

/-- For every link the packets registered on it that are outstanding. -/
abbrev Ledger := ℕ → List ℤ

/-- What a call enters into the ledger. A NAK or an SRTLA ACK settles one
    registration on the link that it is charged to. -/
def LinkCall.record (conns : List Conn) (ledger : Ledger) : LinkCall → Ledger
  | .link ref (.regPkt packet) => Function.update ledger ref (packet :: ledger ref)
  | .link ref .reset => Function.update ledger ref []
  | .registerSrtAck ack => fun ref => (ledger ref).filter fun packet => decide (ack ≤ packet)
  | .registerNak packet | .registerSrtlaAck packet =>
    match charged packet conns with
    | some c => Function.update ledger c.ref ((ledger c.ref).erase packet)
    | none => ledger
  | _ => ledger

variable {s : State} {conns : List Conn} {c c' : Conn} {packet : ℤ}

/-! ## Calls -/

/-- The log of the link has no number other than the initial one and the mark of a
    cleared entry more often than its account. -/
def Conn.Covered (c : Conn) (account : List ℤ) : Prop :=
  ∀ q, q ≠ 0 → q ≠ -1 → (c.logged fun p => p = q).card ≤ account.count q

namespace Conn.Covered

variable {account : List ℤ}

theorem readsLog : ReadsLog Conn.Covered := by
  intro c c' account hidx hlog h q h0 h1
  rw [Conn.logged_congr hlog hidx]
  exact h q h0 h1

theorem regPkt (h : c.Covered account) (packet : ℤ) : (c.regPkt packet).Covered (packet :: account) := by
  intro q h0 h1
  have hreg := @Conn.card_logged_regPkt c packet (fun p => p = q) _
  have hq := h q h0 h1
  rw [List.count_cons]
  simp only [beq_iff_eq]
  omega

theorem wipe (c : Conn) : c.wipe.Covered [] := by
  intro q _ h1
  rw [Conn.logged_wipe fun e => h1 e.symm, Finset.card_empty]
  exact Nat.zero_le _

theorem registerSrtAck (h : c.Covered account) (ack : ℤ) :
    (c.registerSrtAck ack).Covered (account.filter fun packet => decide (ack ≤ packet)) := by
  intro q h0 h1
  rw [Conn.logged_registerSrtAck fun e => h1 e.symm]
  by_cases hq : ack ≤ q
  · rw [List.count_filter (by simpa using hq)]
    refine (Finset.card_le_card fun i hi => ?_).trans (h q h0 h1)
    rw [Conn.mem_logged] at hi ⊢
    exact ⟨hi.1, hi.2.1⟩
  · rw [Conn.logged_eq_empty, Finset.card_empty]
    · exact Nat.zero_le _
    · rintro i ⟨heq, hle⟩
      exact hq (heq ▸ hle)

/-- The link that is charged loses the entry, its account the registration. -/
theorem clearSlot (h : c.Covered account) {i : Fin pktLogSz} (hfind : c.findPkt packet = some i) :
    (c.clearSlot i).Covered (account.erase packet) := by
  intro q h0 h1
  have hq := h q h0 h1
  by_cases hqp : q = packet
  · have hclear := Conn.card_logged_clearSlot (P := fun p => p = q) (Ne.symm h1) hfind hqp.symm
    rw [← hqp, List.count_erase_self]
    omega
  · have hclear := Conn.card_logged_clearSlot_le (c := c) (i := i) (P := fun p => p = q) (Ne.symm h1)
    rw [List.count_erase_of_ne hqp]
    omega

/-- A new log has zeros only. -/
theorem create (ref : ℕ) (src : Block 4) (account : List ℤ) : (Conn.create ref src).Covered account := by
  intro q h0 _
  rw [Conn.logged_eq_empty, Finset.card_empty]
  · exact Nat.zero_le _
  · intro i heq
    replace heq : (Vector.replicate pktLogSz (0 : ℤ))[i.val] = q := heq
    rw [Vector.getElem_replicate] at heq
    exact h0 heq.symm

end Conn.Covered

/-- **Every call keeps the logs within the accounts.** -/
theorem covers_kept : KeptBy Conn.Covered LinkCall.record := by
  intro b k hnodup _ _ h
  refine h.call Conn.Covered.readsLog hnodup ?_
  cases k with
  | link ref change =>
    cases change with
    | regPkt packet => exact ⟨_, rfl, fun c hc => hc.regPkt packet⟩
    | reset => exact ⟨_, rfl, Conn.Covered.wipe⟩
    | selected | sendFailed | heard | openSocket | keep => rfl
  | registerSrtAck ack => exact fun c ref hc => hc.registerSrtAck ack
  | registerNak packet | registerSrtlaAck packet =>
    exact settles_charged (P := Conn.Covered) (g := fun account => account.erase packet)
      fun c i account hfind hc => hc.clearSlot hfind
  | create ref src => exact ⟨Conn.Covered.create ref src _, fun _ _ => rfl⟩
  | mark | sweep => rfl

/-! ## Runs -/

/-- What a NAK or an SRTLA ACK does to a link that is charged for it: `c` has
    become `c'`, an entry of its log is cleared, its window is lowered (NAK) or it
    has a packet less in flight (ACK). -/
def LinkCall.Charges (c c' : Conn) : LinkCall → Prop
  | .registerNak _ => c'.pktLog ≠ c.pktLog ∨ c'.window < c.window
  | .registerSrtlaAck _ => c'.pktLog ≠ c.pktLog ∨ c'.inFlightPkts < c.inFlightPkts
  | _ => False

/-- A run of the sender with its ledger, which is empty at the start. -/
abbrev audited (s₀ : State) : Lts (Following (List ℤ)) Op := followed LinkCall.record (fun _ => []) s₀

/-- In every run, `register_nak` and `register_srtla_ack` charge a link for the
    packet only if it is outstanding on that link. The call `k` is made in a step
    from `a`, after the calls `ks` of that step. -/
def ChargesCarriers (packet : ℤ) : Prop :=
  ∀ cfg s₀ a op r ks k ks', start cfg = some s₀ → (audited s₀).Reachable a →
    step a.state op = some r → a.state.calls op = ks ++ k :: ks' →
    k = .registerNak packet ∨ k = .registerSrtlaAck packet →
    let b := a.books.calls LinkCall.record ks
    ∀ c ∈ b.conns, ∀ c' ∈ (b.call LinkCall.record k).conns, c'.ref = c.ref → k.Charges c c' →
      packet ∈ b.accounts c.ref

/-- The link that is charged has the packet in its log. -/
theorem charged_of_charges (hnodup : (conns.map Conn.ref).Nodup) {k : LinkCall}
    (hk : k = .registerNak packet ∨ k = .registerSrtlaAck packet) (hc : c ∈ conns)
    (hc' : c' ∈ k.apply conns) (href : c'.ref = c.ref) (h : k.Charges c c') :
    charged packet conns = some c := by
  rcases hk with rfl | rfl
  · replace hc' : c' ∈ registerNak packet conns := hc'
    rw [registerNak_eq hnodup] at hc'
    obtain ⟨d, hd, ⟨hch, rfl⟩ | ⟨_, rfl⟩⟩ := mem_charge hnodup hc'
    · rwa [Keyed.eq_of_key_eq hnodup hc hd (href.symm.trans (Conn.nak_frame packet d))]
    · rw [Keyed.eq_of_key_eq hnodup hc hd href.symm] at h
      exact absurd h (not_or.mpr ⟨fun hlog => hlog rfl, lt_irrefl _⟩)
  · replace hc' : c' ∈ registerSrtlaAck packet conns := hc'
    rw [registerSrtlaAck_eq hnodup] at hc'
    obtain ⟨e, he, rfl⟩ := List.mem_map.mp hc'
    obtain ⟨hgrow, _, hlog, hflight⟩ := e.grow_frame
    obtain ⟨d, hd, ⟨hch, rfl⟩ | ⟨_, rfl⟩⟩ := mem_charge hnodup he
    · rwa [Keyed.eq_of_key_eq hnodup hc hd
        (href.symm.trans (hgrow.trans (Conn.ack_frame packet d)))]
    · -- growing is no charge
      rw [Keyed.eq_of_key_eq hnodup hc hd (href.symm.trans hgrow)] at h
      exact absurd h (not_or.mpr ⟨fun hne => hne hlog, hflight.not_lt⟩)

/-- A number that is neither the initial one nor the mark of a cleared entry is
    in a log only because it was registered there. -/
theorem chargesCarriers_of_ne (h0 : packet ≠ 0) (h1 : packet ≠ -1) : ChargesCarriers packet := by
  intro cfg s₀ a op r ks k ks' hstart hreach hstep hcalls hk b c hc c' hc' href hcharges
  have hinit := booked_start Conn.Covered.readsLog (fun ref src => Conn.Covered.create ref src []) hstart
  have hbefore := covers_kept.between_calls hstart hinit hreach hcalls
  have hdistinct : a.state.Distinct := (covers_kept.reachable hstart hinit hreach).1
  have hnodup : (b.conns.map Conn.ref).Nodup := nodup_between_calls hdistinct hcalls
  have hch := charged_of_charges hnodup hk hc hc' href hcharges
  obtain ⟨i, hfind⟩ := charged_findPkt hch
  have hpos := Conn.logged_pos_of_findPkt hfind
  exact List.count_pos_iff.mp (hpos.trans_le (hbefore c hc packet h0 h1))

/-! ## The two numbers that are no packets -/

/-- A NAK of packet 0 that arrives on the first link. -/
def nakZero : Op := nakOf 0

/-- The newest slot in sight of a new link is the last one, and it holds 0. -/
theorem registerNak_oneLinkConn :
    registerNak 0 [{ oneLinkConn with lastRcvd := 100 }] =
      [Conn.nakAt { oneLinkConn with lastRcvd := 100 } 255] := by
  rw [registerNak]
  rfl

theorem step_nakZero (hdistinct : s.Distinct) (hconns : s.conns = [oneLinkConn])
    (hexited : s.exited = false) :
    ∃ r, step s nakZero = some r ∧
      r.1.conns = [Conn.nakAt { oneLinkConn with lastRcvd := 100 } 255] := by
  obtain ⟨r, hstep, _, _, hconns⟩ := step_heard hdistinct hexited hconns rfl (by decide)
    (fun _ => Option.isSome_of_eq_some (nakIds_srtFrame (by decide)))
    (calls_nakOf s (show 0 < 2 ^ 31 by decide))
  exact ⟨r, hstep, hconns.trans registerNak_oneLinkConn⟩

theorem not_chargesCarriers_zero : ¬ ChargesCarriers 0 := by
  intro h
  obtain ⟨s₀, h₀, hconns, hexited⟩ := start_oneLink
  obtain ⟨r, hstep, _⟩ := step_nakZero (start_calls h₀).2 hconns hexited
  have hheard : (Books.calls LinkCall.record ⟨s₀.conns, fun _ => []⟩ [.link 0 (.heard 100)]).conns =
      [{ oneLinkConn with lastRcvd := 100 }] := by
    rw [hconns]
    rfl
  have hmem := h oneLink s₀ ⟨s₀, fun _ => []⟩ nakZero r [.link 0 (.heard 100)] (.registerNak 0) [] h₀
    .init hstep (calls_nakOf s₀ (by decide)) (Or.inl rfl) { oneLinkConn with lastRcvd := 100 }
    (hheard ▸ List.mem_singleton_self _) (Conn.nakAt { oneLinkConn with lastRcvd := 100 } 255)
    (by
      show _ ∈ registerNak 0
        (Books.calls LinkCall.record ⟨s₀.conns, fun _ => []⟩ [.link 0 (.heard 100)]).conns
      rw [hheard, registerNak_oneLinkConn]
      exact List.mem_singleton_self _) rfl (Or.inr (by decide))
  cases hmem

/-- A link with a cleared entry in sight and a packet in flight is credited for the mark. -/
theorem registerSrtlaAck_mark (hfind : (c.findPkt (-1)).isSome) (hflight : 0 < c.inFlightPkts) :
    ∃ c' ∈ registerSrtlaAck (-1) [c], c'.ref = c.ref ∧ c'.inFlightPkts < c.inFlightPkts := by
  obtain ⟨i, hi⟩ := Option.isSome_iff_exists.mp hfind
  have hack : c.ack (-1) = c.ackAt i := by
    rw [Conn.ack, hi]
  have hnodup : ([c].map Conn.ref).Nodup := List.nodup_singleton _
  refine ⟨(c.ack (-1)).grow, ?_, ?_, ?_⟩
  · rw [registerSrtlaAck_eq hnodup, charge_cons_of_found hnodup hfind]
    exact List.mem_cons_self
  · exact (Conn.grow_frame _).1.trans (Conn.ack_frame (-1) c)
  · rw [(Conn.grow_frame _).2.2.2, hack, c.ackAt_inFlight, if_pos hflight]
    omega

/-- A link whose only uncleared entries are out of sight, and which can be selected. -/
structure Conn.Cleared (c : Conn) : Prop extends c.Ready where
  idx : c.pktIdx = 0
  log : c.pktLog.get 2 = -1

theorem cleared_registerSrtAck (href : c.ref = 0) (hfd : 0 ≤ c.fd) (hrcvd : c.lastRcvd = 100)
    (hwindow : 0 ≤ c.window) (hidx : c.pktIdx = 0) (hlog : c.pktLog.get 2 = 0) :
    (c.registerSrtAck 1).Cleared := by
  obtain ⟨hidx', hwindow', hrcvd', hflight⟩ := c.registerSrtAck_frame 1
  have hlink := c.sameLink_registerSrtAck 1
  refine ⟨⟨hlink.ref.trans href, hlink.fd.symm ▸ hfd, hrcvd'.trans hrcvd, hwindow'.symm ▸ hwindow,
    hflight⟩, hidx'.trans hidx, ?_⟩
  rw [Conn.registerSrtAck_get, hidx, hlog]
  exact if_pos ⟨by decide, by decide⟩

/-- An SRT ACK of packet 1 clears the log of the only link. -/
theorem step_ackOne (hdistinct : s.Distinct) (hexited : s.exited = false) (hconns : s.conns = [c])
    (href : c.ref = 0) (hfd : 0 ≤ c.fd) (hwindow : 0 ≤ c.window) (hidx : c.pktIdx = 0)
    (hlog : c.pktLog.get 2 = 0) :
    ∃ r d, step s (srtAckOf 1) = some r ∧ r.1.Alone d ∧ d.Cleared := by
  obtain ⟨r, hstep, hdistinct, hexited, hconns⟩ := step_heard hdistinct hexited hconns href hfd
    (fun htype => absurd htype (by decide)) (calls_srtAckOf s (show 1 < 2 ^ 31 by decide))
  have hcleared := cleared_registerSrtAck (c := { c with lastRcvd := 100 }) href hfd rfl hwindow hidx hlog
  exact ⟨r, _, hstep, ⟨hdistinct, hexited, hconns, hcleared.toReady⟩, hcleared⟩

theorem Conn.Cleared.findPkt (hc : c.Cleared) :
    (Conn.findPkt (Conn.regPkt { c with lastSent := 100 } 5) (-1)).isSome := by
  rw [Conn.findPkt_isSome_iff]
  refine ⟨2, ?_, ?_⟩
  · show 2 ≠ Fin.ofNat pktLogSz ((c.pktIdx.val + 1) % pktLogSz)
    rw [hc.idx]
    decide
  · show (c.pktLog.set c.pktIdx 5 c.pktIdx.isLt).get 2 = -1
    rw [get_set_log, hc.idx, if_neg (by decide), hc.log]

/-- A run that ends with a link which has a packet in flight and a cleared entry
    in sight, and on which only 5 is outstanding. -/
theorem exists_mark_in_sight :
    ∃ s₀ a c, start oneLink = some s₀ ∧ (audited s₀).Reachable a ∧ a.state.Alone c ∧
      a.accounts 0 = [5] ∧ 0 < c.inFlightPkts ∧ (c.findPkt (-1)).isSome := by
  obtain ⟨s₀, h₀, hconns, hexited⟩ := start_oneLink
  obtain ⟨r₁, d, hstep₁, halone₁, hd⟩ := step_ackOne (start_calls h₀).2 hexited hconns
    rfl (by decide) (by decide) rfl (by decide)
  have hreach₁ : (audited s₀).Reachable ⟨r₁.1, _⟩ := followed_step .init hstep₁
  obtain ⟨a, hreach, halone, haccounts⟩ := followed_data (n := 5) hreach₁ halone₁ (by decide)
  have hflight := hd.inFlight
  refine ⟨s₀, a, _, h₀, hreach, halone, ?_, ?_, hd.findPkt⟩
  · rw [haccounts]
    show 5 :: (Books.calls LinkCall.record _ (s₀.calls (srtAckOf 1))).accounts 0 = [5]
    rw [calls_srtAckOf s₀ (by decide)]
    rfl
  · show 0 < d.inFlightPkts + 1
    omega

theorem not_chargesCarriers_mark : ¬ ChargesCarriers (-1) := by
  intro h
  obtain ⟨s₀, a, c, h₀, hreach, halone, hledger, hflight, hfind⟩ := exists_mark_in_sight
  have href := halone.ready.ref
  have hcalls : a.state.calls (srtlaAckOf 0xFFFFFFFF) = [.link 0 (.heard 100), .registerSrtlaAck (-1)] :=
    calls_srtlaAckOf a.state (by decide)
  obtain ⟨r, hstep, _⟩ := step_heard halone.distinct halone.running halone.conns href halone.ready.fd
    (fun htype => absurd htype (by decide)) hcalls
  have hheard : (a.books.calls LinkCall.record [.link 0 (.heard 100)]).conns =
      [{ c with lastRcvd := 100 }] := by
    show Keyed.modify Conn.ref 0 _ a.state.conns = _
    rw [halone.conns]
    simp [Keyed.modify, LinkChange.apply, href]
  obtain ⟨c', hc', href', hless⟩ := registerSrtlaAck_mark (c := { c with lastRcvd := 100 }) hfind hflight
  have hmem := h oneLink s₀ a (srtlaAckOf 0xFFFFFFFF) r [.link 0 (.heard 100)] (.registerSrtlaAck (-1)) [] h₀ hreach
    hstep hcalls (Or.inr rfl) { c with lastRcvd := 100 }
    (hheard ▸ List.mem_singleton_self _) c'
    (by
      show _ ∈ registerSrtlaAck (-1) (a.books.calls LinkCall.record [.link 0 (.heard 100)]).conns
      rwa [hheard]) href' (Or.inr hless)
  have hfive : (-1 : ℤ) ∈ a.accounts c.ref := hmem
  rw [href, hledger] at hfive
  exact absurd hfive (by decide)

/-- **Only carriers are charged, but for two numbers.** In every run, a link is
    charged for the loss or the acknowledgement of a number only if a packet with
    that number is outstanding on it, iff the number is neither 0, with which the
    log of a new link is filled, nor -1, which marks a cleared entry. -/
theorem charges_carriers_iff (packet : ℤ) : ChargesCarriers packet ↔ packet ≠ 0 ∧ packet ≠ -1 := by
  constructor
  · intro h
    constructor
    · rintro rfl
      exact not_chargesCarriers_zero h
    · rintro rfl
      exact not_chargesCarriers_mark h
  · rintro ⟨h0, h1⟩
    exact chargesCarriers_of_ne h0 h1

/-- A sender that has sent nothing gets a NAK of packet 0, and lowers the window
    of its only link. -/
theorem charged_without_packet :
    ∃ s₀ r, start oneLink = some s₀ ∧ s₀.conns = [oneLinkConn] ∧ oneLinkConn.window = 20000 ∧
      step s₀ nakZero = some r ∧ ∃ c, r.1.conns = [c] ∧ c.ref = oneLinkConn.ref ∧ c.window = 19900 := by
  obtain ⟨s₀, h₀, hconns, hexited⟩ := start_oneLink
  obtain ⟨r, hstep, hconns'⟩ := step_nakZero (start_calls h₀).2 hconns hexited
  exact ⟨s₀, r, h₀, hconns, rfl, hstep, _, hconns', rfl, rfl⟩

end Srtla.Sender
