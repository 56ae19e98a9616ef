import Srtla.Lib.Best
import Srtla.Sender.Calls

/-!
# Which link carries a packet (`src/sender.cpp:165-216`)

`select_conn` scores every link that is not timed out by
`window / (in_flight_pkts + 1)`, keeps the best score in `max_score`, which starts
at -1, and stamps the link it returns with the time.

Results:
* `counted_reachable`: in every run the counters of every link are not negative,
  with no condition on the clock or on the numbers that are acknowledged.
* `selectConn_eq_argmax`: the loop computes the first of the best links.
* `select_conn_optimal`: both together, for every state of every run.
-/

namespace Srtla.Sender

open Lib

/-! ## Counters -/

/-- The counters of a link are not negative. -/
structure Conn.Counted (c : Conn) : Prop where
  window : 0 ≤ c.window
  inFlight : 0 ≤ c.inFlightPkts

/-- The score of a link. -/
def Conn.score (c : Conn) : ℤ := c.window.tdiv (c.inFlightPkts + 1)

variable {c : Conn} {conns : List Conn} {t : ℤ}

theorem Conn.Counted.score (h : c.Counted) : 0 ≤ c.score := by
  have hflight := h.inFlight
  exact Int.tdiv_nonneg h.window (by omega)

theorem Conn.Counted.nak (h : c.Counted) (packet : ℤ) : (c.nak packet).Counted := by
  unfold Conn.nak
  split
  · exact ⟨le_max_of_le_right (by decide), h.inFlight⟩
  · exact h

theorem Conn.Counted.ack (h : c.Counted) (packet : ℤ) : (c.ack packet).Counted := by
  have hflight := h.inFlight
  unfold Conn.ack
  split
  · rename_i i _
    refine ⟨h.window.trans (c.ackAt_window i).1, ?_⟩
    rw [c.ackAt_inFlight i]
    split_ifs <;> omega
  · exact h

theorem Conn.Counted.grow (h : c.Counted) : c.grow.Counted := by
  have hwindow := h.window
  unfold Conn.grow
  split_ifs
  · exact ⟨le_min (by omega) (by decide), h.inFlight⟩
  · exact h

theorem Conn.Counted.registerSrtAck (h : c.Counted) (ack : ℤ) : (c.registerSrtAck ack).Counted := by
  obtain ⟨_, hwindow, _, hcount⟩ := c.registerSrtAck_frame ack
  exact ⟨hwindow ▸ h.window, hcount⟩

theorem Conn.Counted.change (h : c.Counted) (change : LinkChange) : (change.apply c).Counted := by
  have hflight := h.inFlight
  cases change with
  | regPkt packet =>
    refine ⟨h.window, ?_⟩
    show 0 ≤ c.inFlightPkts + 1
    omega
  | reset => exact ⟨show (0 : ℤ) ≤ windowMin * windowMult by decide, le_rfl⟩
  | openSocket env =>
    show (Sender.openSocket [] c env).2.2.Counted
    unfold Sender.openSocket
    dsimp only
    split_ifs <;> exact ⟨h.window, h.inFlight⟩
  | selected | sendFailed | heard | keep => exact ⟨h.window, h.inFlight⟩

theorem preserves_counted (conns : List Conn) (k : LinkCall) : k.Preserves Conn.Counted conns := by
  cases k with
  | link ref change => exact fun c _ _ h => h.change change
  | registerSrtAck ack => exact fun c h => h.registerSrtAck ack
  | registerNak packet => exact fun c h => h.nak packet
  | registerSrtlaAck ack => exact fun c h => ⟨(h.ack ack).grow, h.grow⟩
  | mark => exact fun c h => ⟨h.window, h.inFlight⟩
  | create ref src => exact ⟨show (0 : ℤ) ≤ windowDef * windowMult by decide, le_rfl⟩
  | sweep => trivial

variable {cfg : Config} {s₀ s : State}

/-- **The counters of a link are never negative.** -/
theorem counted_reachable (h₀ : start cfg = some s₀) (h : (sender s₀).Reachable s) :
    s.Distinct ∧ ∀ c ∈ s.conns, c.Counted :=
  links_invariant preserves_counted h₀ h

/-! ## The loop -/

/-- The loop of `select_conn` from the best link so far, if there is one. -/
theorem selectLoop_eq_foldl {maxScore : ℤ} {minC : Option Conn} (hscore : ∀ c ∈ conns, 0 ≤ c.score)
    (hmax : maxScore = minC.elim (-1) Conn.score) :
    selectLoop t conns maxScore minC =
      (conns.filter fun c => !c.timedOut t).foldl (List.argAux fun b c => c.score < b.score) minC := by
  induction conns generalizing maxScore minC with
  | nil => rfl
  | cons c cs ih =>
    have hc := hscore c List.mem_cons_self
    have ih := fun maxScore minC => @ih maxScore minC fun x hx => hscore x (List.mem_cons_of_mem _ hx)
    rw [selectLoop]
    by_cases hout : c.timedOut t
    · rw [if_pos hout, List.filter_cons_of_neg (by simp [hout]), ih _ _ hmax]
    · rw [if_neg hout, List.filter_cons_of_pos (by simp [hout]), List.foldl_cons]
      show (if c.score > maxScore then selectLoop t cs c.score (some c) else selectLoop t cs maxScore minC) = _
      cases minC with
      | none =>
        rw [if_pos (show c.score > maxScore by rw [hmax]; show (-1 : ℤ) < _; omega), ih c.score (some c) rfl]
        rfl
      | some m =>
        replace hmax : maxScore = m.score := hmax
        rw [hmax]
        show _ = List.foldl _ (if m.score < c.score then some c else some m) _
        by_cases hlt : m.score < c.score
        · rw [if_pos hlt, if_pos hlt, ih c.score (some c) rfl]
        · rw [if_neg hlt, if_neg hlt, ih m.score (some m) rfl]

/-- **`select_conn` chooses the first of the best links that are not timed out.** -/
theorem selectConn_eq_argmax (hcounted : ∀ c ∈ conns, c.Counted) (t : ℤ) :
    selectConn conns (some t) =
      ((conns.filter fun c => !c.timedOut t).argmax Conn.score).map fun c => { c with lastSent := t } := by
  have hloop : selectLoop t conns (-1) none = _ :=
    selectLoop_eq_foldl (fun c hc => (hcounted c hc).score) rfl
  rw [selectConn, hloop]
  rfl

/-! ## Runs -/

/-- The links as `select_conn` leaves them. -/
def selectedConns (conns : List Conn) (seconds : Option ℤ) : List Conn :=
  match selectConn conns seconds with
  | none => conns
  | some c => Keyed.put Conn.ref c conns

/-- The first call that `handle_srt_data` makes is `select_conn`. -/
theorem selectedConns_eq (h : s.Distinct) (env : SrtDataEnv) :
    selectedConns s.conns env.seconds = applyCalls ((dataCalls s env).take 1) s.conns := by
  unfold selectedConns dataCalls
  cases hsel : selectConn s.conns env.seconds with
  | none => rfl
  | some c =>
    obtain ⟨t, _, x, hx, _, rfl⟩ := selectConn_spec hsel
    exact Keyed.put_eq_modify (f := (LinkChange.selected t).apply) h.refs hx rfl

/-- **Link selection is optimal and total.** In every state of every run, no score
    divides by zero, no link is returned iff all are timed out, and the link that
    is returned is the first of those with the best score among the links that are
    not timed out. Nothing changes but its `last_sent`. -/
theorem select_conn_optimal (h₀ : start cfg = some s₀) (h : (sender s₀).Reachable s) (t : ℤ) :
    (∀ c ∈ s.conns, c.inFlightPkts + 1 ≠ 0) ∧
    (selectConn s.conns (some t) = none ↔ ∀ c ∈ s.conns, c.timedOut t = true) ∧
    (selectConn s.conns (some t) = none → selectedConns s.conns (some t) = s.conns) ∧
    ∀ c', selectConn s.conns (some t) = some c' →
      ∃ before c after, s.conns = before ++ c :: after ∧ c' = { c with lastSent := t } ∧
        c.timedOut t = false ∧
        (∀ x ∈ before, x.timedOut t = false → x.score < c.score) ∧
        (∀ x ∈ after, x.timedOut t = false → x.score ≤ c.score) ∧
        selectedConns s.conns (some t) = before ++ c' :: after := by
  obtain ⟨hdistinct, hcounted⟩ := counted_reachable h₀ h
  refine ⟨fun c hc => ?_, ?_, fun hnone => ?_, fun c' hsel => ?_⟩
  · have hflight := (hcounted c hc).inFlight
    omega
  · rw [selectConn_eq_argmax hcounted, Option.map_eq_none_iff, List.argmax_eq_none, List.filter_eq_nil_iff]
    simp
  · rw [selectedConns, hnone]
  · have hput : selectedConns s.conns (some t) = Keyed.put Conn.ref c' s.conns := by
      rw [selectedConns, hsel]
    rw [selectConn_eq_argmax hcounted] at hsel
    obtain ⟨c, hbest, rfl⟩ := Option.map_eq_some_iff.mp hsel
    obtain ⟨before, after, hconns, hlive, hbefore, hafter⟩ := Best.argmax_filter_split hbest
    simp only [Bool.not_eq_true'] at hlive hbefore hafter
    refine ⟨before, c, after, hconns, rfl, hlive, hbefore, hafter, ?_⟩
    have hrefs := hdistinct.refs
    have hc : c ∈ s.conns := hconns ▸ List.mem_append_right before List.mem_cons_self
    have hmodify : Keyed.put Conn.ref { c with lastSent := t } s.conns =
        Keyed.modify Conn.ref c.ref (LinkChange.selected t).apply s.conns :=
      Keyed.put_eq_modify (f := (LinkChange.selected t).apply) hrefs hc rfl
    rw [hput, hmodify, hconns]
    rw [hconns] at hrefs
    exact Keyed.modify_append_cons hrefs

/-- A data packet of 16 bytes at second 3. -/
def earlyPacket : SrtDataEnv := ⟨16, fun _ => 0, default, some 3, 16⟩

/-- Of two new links the first one is selected. With a packet in flight it scores
    10000, and the second one is selected. -/
theorem select_conn_optimal_two :
    ∃ s₀ s i j, start twoSources = some s₀ ∧ (sender s₀).Reachable s ∧ s.conns = [i, j] ∧
      s₀.conns.map Conn.score = [20000, 20000] ∧ (selectConn s₀.conns (some 3)).map Conn.ref = some i.ref ∧
      i.score = 10000 ∧ j.score = 20000 ∧ selectConn s.conns (some 3) = some { j with lastSent := 3 } ∧
      selectedConns s.conns (some 3) = [i, { j with lastSent := 3 }] := by
  obtain ⟨s₀, i, j, h₀, hexited, hconns, hscores, hfirst, hi, hj, hsel, href⟩ :
      ∃ s₀ i j, start twoSources = some s₀ ∧ s₀.exited = false ∧
        (handleSrtData s₀ earlyPacket).1.conns = [i, j] ∧ s₀.conns.map Conn.score = [20000, 20000] ∧
        (selectConn s₀.conns (some 3)).map Conn.ref = some i.ref ∧ i.score = 10000 ∧ j.score = 20000 ∧
        selectConn [i, j] (some 3) = some { j with lastSent := 3 } ∧ i.ref ≠ j.ref :=
    ⟨_, _, _, rfl, rfl, rfl, rfl, rfl, rfl, rfl, rfl, by decide⟩
  have hstep : step s₀ (.srtData earlyPacket) = some (handleSrtData s₀ earlyPacket) := by
    rw [step, hexited, if_neg Bool.false_ne_true]
  have hreach : (sender s₀).Reachable (handleSrtData s₀ earlyPacket).1 := .step .init trivial ⟨_, hstep⟩
  rw [← hconns] at hsel
  obtain ⟨_, _, _, hopt⟩ := select_conn_optimal h₀ hreach 3
  obtain ⟨before, c, after, hsplit, hc, _, hbefore, _, hleft⟩ := hopt _ hsel
  have hcref : c.ref = j.ref := (congrArg Conn.ref hc).symm
  refine ⟨s₀, _, i, j, h₀, hreach, hconns, hscores, hfirst, hi, hj, hsel, ?_⟩
  -- the first link does not score less than itself, so the second one is `c`
  rw [hconns] at hsplit
  cases before with
  | nil => exact absurd ((congrArg Conn.ref (List.cons.inj hsplit).1).trans hcref) href
  | cons x before =>
    obtain ⟨rfl, hrest⟩ := List.cons.inj hsplit
    cases before with
    | nil =>
      obtain ⟨-, rfl⟩ := List.cons.inj hrest
      exact hleft
    | cons y before => cases before <;> cases hrest

end Srtla.Sender
