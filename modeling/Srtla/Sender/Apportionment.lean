import Srtla.Lib.Apportion
import Srtla.Sender.Selection

/-!
# How a burst is shared out (`src/sender.cpp:155-240`)

`select_conn` gives a packet to a link with the best `window / (in_flight_pkts + 1)`
and `reg_pkt` then adds one to `in_flight_pkts`. Between two datagrams of the
receiver this is the method of highest averages, with the windows as weights and
the packets in flight as seats, rounding included. Packets that are not sent, or
carry no sequence number, take no seat; a link whose send fails drops out.

Results:
* `awards_rounds`: the calls of `handle_srt_data` follow the rule of `Lib.Apportion`.
* `burst_apportioned`: in every run, whatever the calls of a burst meet with, what
  the links carry is in proportion to their windows.
-/

namespace Srtla.Sender

open Lib Lib.Apportion

/-! ## Bursts -/

/-- The packet is sent whole on the link. -/
def State.sendsAll (s : State) (c : Conn) (env : SrtDataEnv) : Bool :=
  decide ((s.sendto c (window env.buf 0 env.n.toNat) env.ret).1 = env.n)

/-- The link that a data packet is sent on and registered with. -/
def carrier (s : State) (env : SrtDataEnv) : Option ℕ :=
  match selectConn s.conns env.seconds with
  | none => none
  | some c => if s.sendsAll c env ∧ 0 ≤ getSrtSn env.buf env.n then some c.ref else none

/-- The link is in the list and not timed out when the packet comes. -/
def Attends (ref : ℕ) (s : State) (env : SrtDataEnv) : Prop :=
  ∃ c ∈ s.conns, c.ref = ref ∧ ∀ t ∈ env.seconds, c.timedOut t = false

instance (ref : ℕ) (s : State) (env : SrtDataEnv) : Decidable (Attends ref s env) :=
  inferInstanceAs (Decidable (∃ c ∈ s.conns, c.ref = ref ∧ ∀ t ∈ env.seconds, c.timedOut t = false))

/-- The sender after a burst of packets of the caller. -/
def burst (s : State) (envs : List SrtDataEnv) : State :=
  envs.foldl (fun s env => (handleSrtData s env).1) s

/-- The links of a burst's data packets. -/
def carriers : State → List SrtDataEnv → List ℕ
  | _, [] => []
  | s, env :: envs => (carrier s env).toList ++ carriers (handleSrtData s env).1 envs

/-- The link attends every packet of a burst. -/
def AttendsAll (ref : ℕ) : State → List SrtDataEnv → Prop
  | _, [] => True
  | s, env :: envs => Attends ref s env ∧ AttendsAll ref (handleSrtData s env).1 envs

instance decidableAttendsAll (ref : ℕ) : (s : State) → (envs : List SrtDataEnv) →
    Decidable (AttendsAll ref s envs)
  | _, [] => .isTrue trivial
  | s, env :: envs =>
    have := decidableAttendsAll ref (handleSrtData s env).1 envs
    inferInstanceAs (Decidable (Attends ref s env ∧ AttendsAll ref (handleSrtData s env).1 envs))

/-- The rounds of a burst: the data packets that are sent. -/
def rounds : State → List SrtDataEnv → List (Round ℕ)
  | _, [] => []
  | s, env :: envs =>
    (carrier s env).toList.map (fun ref => ⟨fun r => Attends r s env, ref⟩) ++
      rounds (handleSrtData s env).1 envs

theorem map_winner_rounds (s : State) (envs : List SrtDataEnv) :
    (rounds s envs).map Round.winner = carriers s envs := by
  induction envs generalizing s with
  | nil => rfl
  | cons env envs ih =>
    rw [rounds, carriers, List.map_append, ih, List.map_map]
    congr 1
    exact List.map_id _

theorem AttendsAll.present {ref : ℕ} {s : State} {envs : List SrtDataEnv} (h : AttendsAll ref s envs) :
    ∀ r ∈ rounds s envs, r.present ref := by
  induction envs generalizing s with
  | nil => intro r hr; cases hr
  | cons env envs ih =>
    intro r hr
    rcases List.mem_append.mp hr with hr | hr
    · obtain ⟨_, _, rfl⟩ := List.mem_map.mp hr
      exact h.1
    · exact ih h.2 r hr

/-! ## One packet -/

/-- The selected link as `handle_srt_data` leaves it. -/
def handed (s : State) (env : SrtDataEnv) (c : Conn) : Conn :=
  if s.sendsAll c env then
    if getSrtSn env.buf env.n ≥ 0 then c.regPkt (getSrtSn env.buf env.n) else c
  else { c with lastRcvd := 1 }

section

variable {s : State} {env : SrtDataEnv} {c : Conn}

theorem handleSrtData_unselected (h : selectConn s.conns env.seconds = none) :
    (handleSrtData s env).1.conns = s.conns := by
  unfold handleSrtData
  dsimp only
  rw [h]

theorem handleSrtData_selected (h : selectConn s.conns env.seconds = some c) :
    (handleSrtData s env).1.conns = Keyed.put Conn.ref (handed s env c) s.conns := by
  unfold handleSrtData handed State.sendsAll
  dsimp only
  rw [h]
  simp only [decide_eq_true_eq]
  rfl

theorem carrier_of_selected (h : selectConn s.conns env.seconds = some c) :
    carrier s env = if s.sendsAll c env ∧ 0 ≤ getSrtSn env.buf env.n then some c.ref else none := by
  rw [carrier, h]

theorem handed_ref (s : State) (env : SrtDataEnv) (c : Conn) : (handed s env c).ref = c.ref := by
  unfold handed
  split_ifs <;> rfl

theorem handed_window (s : State) (env : SrtDataEnv) (c : Conn) : (handed s env c).window = c.window := by
  unfold handed
  split_ifs <;> rfl

theorem handed_inFlight (s : State) (env : SrtDataEnv) (c : Conn) :
    (handed s env c).inFlightPkts = c.inFlightPkts +
      ((if s.sendsAll c env ∧ 0 ≤ getSrtSn env.buf env.n then 1 else 0 : ℕ) : ℤ) := by
  unfold handed
  by_cases hsent : s.sendsAll c env
  · by_cases hsn : 0 ≤ getSrtSn env.buf env.n
    · rw [if_pos hsent, if_pos hsn, if_pos ⟨hsent, hsn⟩]
      rfl
    · rw [if_pos hsent, if_neg hsn, if_neg fun h => hsn h.2, Nat.cast_zero, add_zero]
  · rw [if_neg hsent, if_neg fun h => hsent h.1, Nat.cast_zero, add_zero]

end

/-- The windows and the packets in flight of the links, by identity. -/
structure Loads (w : ℕ → ℤ) (f : ℕ → ℕ) (s : State) : Prop where
  refs : (s.conns.map Conn.ref).Nodup
  window : ∀ c ∈ s.conns, c.window = w c.ref
  inFlight : ∀ c ∈ s.conns, c.inFlightPkts = f c.ref

/-- The quotient of a link with `n` packets in flight. -/
def quotient (w : ℕ → ℤ) (ref n : ℕ) : ℤ := w ref / (n + 1)

variable {w : ℕ → ℤ} {f : ℕ → ℕ} {s : State} {ref : ℕ}

theorem quotient_antitone (hw : ∀ ref, 0 ≤ w ref) (ref : ℕ) : Antitone (quotient w ref) := by
  intro m n hmn
  have hnonneg : 0 ≤ w ref / (n + 1) := Int.ediv_nonneg (hw ref) (by omega)
  refine (Int.le_ediv_iff_mul_le (by omega)).mpr ?_
  calc w ref / (n + 1) * (m + 1) ≤ w ref / (n + 1) * (n + 1) := by gcongr
    _ ≤ w ref := Int.ediv_mul_le _ (by omega)

theorem Loads.score (h : Loads w f s) (hw : ∀ ref, 0 ≤ w ref) {c : Conn} (hc : c ∈ s.conns) :
    c.score = quotient w c.ref (f c.ref) := by
  unfold Conn.score quotient
  rw [h.window c hc, h.inFlight c hc, Int.tdiv_eq_ediv_of_nonneg (hw _)]

theorem Loads.counted (h : Loads w f s) (hw : ∀ ref, 0 ≤ w ref) : ∀ c ∈ s.conns, c.Counted := by
  intro c hc
  refine ⟨?_, ?_⟩
  · rw [h.window c hc]
    exact hw _
  · rw [h.inFlight c hc]
    exact Int.natCast_nonneg _

/-- One link is rewritten, and counts `d` packets more. -/
theorem Loads.put (h : Loads w f s) {x c : Conn} {d : ℕ} (hx : x ∈ s.conns) (href : c.ref = x.ref)
    (hwindow : c.window = x.window) (hflight : c.inFlightPkts = x.inFlightPkts + d)
    {s' : State} (hconns : s'.conns = Keyed.put Conn.ref c s.conns) :
    Loads w (Function.update f x.ref (f x.ref + d)) s' := by
  have hcases : ∀ y ∈ s'.conns, y = c ∨ y ∈ s.conns ∧ y.ref ≠ x.ref := by
    intro y hy
    rw [hconns, Keyed.mem_put, href] at hy
    exact hy.imp And.left id
  refine ⟨?_, fun y hy => ?_, fun y hy => ?_⟩
  · rw [hconns, Keyed.map_key_put]
    exact h.refs
  · rcases hcases y hy with rfl | ⟨hy, _⟩
    · rw [hwindow, href, h.window x hx]
    · exact h.window y hy
  · rcases hcases y hy with rfl | ⟨hy, hne⟩
    · rw [href, Function.update_self, hflight, h.inFlight x hx, Nat.cast_add]
    · rw [Function.update_of_ne hne, h.inFlight y hy]

/-- A packet that no link carries leaves windows and counters alone. -/
theorem Loads.idle (h : Loads w f s) {env : SrtDataEnv} (hnone : carrier s env = none) :
    Loads w f (handleSrtData s env).1 := by
  cases hsel : selectConn s.conns env.seconds with
  | none =>
    have hconns := handleSrtData_unselected hsel
    exact ⟨hconns ▸ h.refs, hconns ▸ h.window, hconns ▸ h.inFlight⟩
  | some c =>
    obtain ⟨t, _, x, hx, _, rfl⟩ := selectConn_spec hsel
    have hnot : ¬ (s.sendsAll { x with lastSent := t } env ∧ 0 ≤ getSrtSn env.buf env.n) := by
      intro hsent
      rw [carrier_of_selected hsel, if_pos hsent] at hnone
      cases hnone
    have hput := h.put (d := 0) hx (handed_ref s env { x with lastSent := t }) (handed_window _ _ _)
      (by
        rw [handed_inFlight, if_neg hnot]) (handleSrtData_selected hsel)
    rwa [Nat.add_zero, Function.update_eq_self] at hput

/-- A packet that is carried counts for its link, which has the best quotient of
    the links that attend. -/
theorem Loads.carried (h : Loads w f s) (hw : ∀ ref, 0 ≤ w ref) {env : SrtDataEnv}
    (hcarrier : carrier s env = some ref) :
    Loads w (Function.update f ref (f ref + 1)) (handleSrtData s env).1 ∧
      ∀ j, Attends j s env → quotient w j (f j) ≤ quotient w ref (f ref) := by
  cases hsel : selectConn s.conns env.seconds with
  | none =>
    rw [carrier, hsel] at hcarrier
    cases hcarrier
  | some c =>
    rw [carrier_of_selected hsel] at hcarrier
    obtain ⟨hsent, href⟩ := Option.ite_none_right_eq_some.mp hcarrier
    obtain ⟨t, hseconds, x, hx, hlive, rfl⟩ := selectConn_spec hsel
    obtain rfl : x.ref = ref := Option.some.inj href
    constructor
    · refine h.put hx (handed_ref s env { x with lastSent := t }) (handed_window _ _ _) ?_
        (handleSrtData_selected hsel)
      rw [handed_inFlight, if_pos hsent]
    · rintro j ⟨c, hc, rfl, htimed⟩
      rw [← h.score hw hc, ← h.score hw hx]
      rw [hseconds, selectConn_eq_argmax (h.counted hw)] at hsel
      obtain ⟨y, hbest, hy⟩ := Option.map_eq_some_iff.mp hsel
      have hmem : c ∈ s.conns.filter fun c => !c.timedOut t := by
        rw [List.mem_filter, htimed t hseconds]
        exact ⟨hc, rfl⟩
      have hle : c.score ≤ y.score := List.le_of_mem_argmax hmem hbest
      have hscore : y.score = x.score := by
        show y.window.tdiv (y.inFlightPkts + 1) = x.window.tdiv (x.inFlightPkts + 1)
        injection hy with _ _ _ _ _ _ _ hflight hwindow
        rw [hflight, hwindow]
      exact hscore ▸ hle

/-! ## Bursts -/

/-- The calls of `handle_srt_data` follow the method of highest averages. -/
theorem awards_rounds (h : Loads w f s) (hw : ∀ ref, 0 ≤ w ref) (envs : List SrtDataEnv) :
    Awards (quotient w) f (rounds s envs) ∧ Loads w (seats f (rounds s envs)) (burst s envs) := by
  induction envs generalizing s f with
  | nil => exact ⟨trivial, h⟩
  | cons env envs ih =>
    show Awards (quotient w) f (rounds s (env :: envs)) ∧
      Loads w (seats f (rounds s (env :: envs))) (burst (handleSrtData s env).1 envs)
    rw [rounds]
    cases hcarrier : carrier s env with
    | none => exact ih (h.idle hcarrier)
    | some ref =>
      obtain ⟨hloads, hbest⟩ := h.carried hw hcarrier
      obtain ⟨hawards, hafter⟩ := ih hloads
      refine ⟨⟨hbest, hawards⟩, ?_⟩
      show Loads w (seats f (_ :: rounds _ envs)) _
      rw [seats_cons]
      exact hafter

variable {cfg : Config} {s₀ : State}

/-- The links of a state of a run, by identity. -/
theorem exists_loads (h₀ : start cfg = some s₀) (h : (sender s₀).Reachable s) :
    ∃ w f, (∀ ref, 0 ≤ w ref) ∧ Loads w f s := by
  obtain ⟨hdistinct, hcounted⟩ := counted_reachable h₀ h
  have hget : ∀ c ∈ s.conns, Keyed.get Conn.ref c.ref s.conns = some c := fun c hc =>
    (Keyed.get_eq_some_iff hdistinct.refs).mpr ⟨hc, rfl⟩
  refine ⟨fun ref => (Keyed.get Conn.ref ref s.conns).elim 0 Conn.window,
    fun ref => (Keyed.get Conn.ref ref s.conns).elim 0 fun c => c.inFlightPkts.toNat, fun ref => ?_,
    hdistinct.refs, fun c hc => ?_, fun c hc => ?_⟩
  · show 0 ≤ (Keyed.get Conn.ref ref s.conns).elim 0 Conn.window
    cases hc : Keyed.get Conn.ref ref s.conns with
    | none => exact le_refl (0 : ℤ)
    | some c => exact (hcounted c (Keyed.get_mem hc)).window
  · rw [hget c hc]
    rfl
  · rw [hget c hc]
    exact (Int.toNat_of_nonneg (hcounted c hc).inFlight).symm

/-- The links stay in place during a burst. -/
theorem map_ref_burst (s : State) (envs : List SrtDataEnv) :
    (burst s envs).conns.map Conn.ref = s.conns.map Conn.ref := by
  induction envs generalizing s with
  | nil => rfl
  | cons env envs ih =>
    show (burst (handleSrtData s env).1 envs).conns.map Conn.ref = _
    rw [ih]
    cases hsel : selectConn s.conns env.seconds with
    | none => rw [handleSrtData_unselected hsel]
    | some c => rw [handleSrtData_selected hsel, Keyed.map_key_put]

/-- **A burst is shared out in proportion to the windows.** In every run, for every
    burst of packets of the caller and whatever its calls meet with: a link has as
    many packets more in flight as it carried, with its window unchanged; and the
    last packet of any link found it with a quotient at least as good as the next
    packet would find at any link that was there and not timed out throughout. So
    the packets in flight are in the ratio of the windows, up to the rounding of
    the quotients. -/
theorem burst_apportioned (h₀ : start cfg = some s₀) (h : (sender s₀).Reachable s)
    (envs : List SrtDataEnv) :
    (∀ c ∈ s.conns, ∃ c' ∈ (burst s envs).conns, c'.ref = c.ref ∧ c'.window = c.window ∧
      c'.inFlightPkts = c.inFlightPkts + (carriers s envs).count c.ref) ∧
    ∀ i ∈ (burst s envs).conns, ∀ j ∈ (burst s envs).conns, i.ref ∈ carriers s envs →
      AttendsAll j.ref s envs →
        0 < i.inFlightPkts ∧ j.window / (j.inFlightPkts + 1) ≤ i.window / i.inFlightPkts ∧
        j.window * i.inFlightPkts < (i.window + i.inFlightPkts) * (j.inFlightPkts + 1) := by
  obtain ⟨w, f, hw, hloads⟩ := exists_loads h₀ h
  obtain ⟨hawards, hafter⟩ := awards_rounds hloads hw envs
  refine ⟨fun c hc => ?_, fun i hi j hj hcarried hattends => ?_⟩
  · have hmem : c.ref ∈ (burst s envs).conns.map Conn.ref := by
      rw [map_ref_burst]
      exact List.mem_map_of_mem hc
    obtain ⟨c', hc', href⟩ := List.mem_map.mp hmem
    refine ⟨c', hc', href, ?_, ?_⟩
    · rw [hafter.window c' hc', href, hloads.window c hc]
    · rw [hafter.inFlight c' hc', href, hloads.inFlight c hc, ← map_winner_rounds]
      exact Nat.cast_add _ _
  · have hwon : i.ref ∈ (rounds s envs).map Round.winner := by
      rwa [map_winner_rounds]
    have hseats : 1 ≤ seats f (rounds s envs) i.ref :=
      (List.one_le_count_iff.mpr hwon).trans (Nat.le_add_left _ _)
    have hbalanced := hawards.balanced (quotient_antitone hw) hwon hattends.present
    unfold quotient at hbalanced
    rw [Nat.cast_sub hseats, Nat.cast_one, sub_add_cancel, ← hafter.window j hj, ← hafter.inFlight j hj,
      ← hafter.window i hi, ← hafter.inFlight i hi] at hbalanced
    have hi₀ : 0 < i.inFlightPkts := by
      rw [hafter.inFlight i hi]
      omega
    have hj₀ : 0 < j.inFlightPkts + 1 := by
      rw [hafter.inFlight j hj]
      omega
    exact ⟨hi₀, hbalanced, mul_lt_of_div_le hi₀ hj₀ hbalanced⟩

/-- Three data packets of 16 bytes, sent while the links are new. -/
def threePackets : List SrtDataEnv := List.replicate 3 ⟨16, fun _ => 0, default, some 3, 16⟩

/-- Three packets on two links with equal windows: two on the link that is tried
    first, and one on the other. -/
theorem burst_apportioned_three :
    ∃ s₀ i j, start twoSources = some s₀ ∧ (sender s₀).Reachable s₀ ∧
      carriers s₀ threePackets = [1, 0, 1] ∧
      (burst s₀ threePackets).conns = [i, j] ∧ i.ref = 1 ∧ j.ref = 0 ∧
      AttendsAll j.ref s₀ threePackets ∧
      j.window / (j.inFlightPkts + 1) ≤ i.window / i.inFlightPkts := by
  obtain ⟨s₀, h₀, hcarriers, i, j, hburst, hi, hj, hattends⟩ : ∃ s₀, start twoSources = some s₀ ∧
      carriers s₀ threePackets = [1, 0, 1] ∧
      ∃ i j, (burst s₀ threePackets).conns = [i, j] ∧ i.ref = 1 ∧ j.ref = 0 ∧
        AttendsAll j.ref s₀ threePackets := by
    exact ⟨_, rfl, rfl, _, _, rfl, rfl, rfl, by decide +kernel⟩
  have hmem : i ∈ (burst s₀ threePackets).conns ∧ j ∈ (burst s₀ threePackets).conns := by
    rw [hburst]
    exact ⟨List.mem_cons_self, List.mem_cons_of_mem _ List.mem_cons_self⟩
  obtain ⟨_, hshare⟩ := burst_apportioned h₀ .init threePackets
  have hcarried : i.ref ∈ carriers s₀ threePackets := by
    rw [hcarriers, hi]
    decide
  exact ⟨s₀, i, j, h₀, .init, hcarriers, hburst, hi, hj, hattends,
    (hshare i hmem.1 j hmem.2 hcarried hattends).2.1⟩

end Srtla.Sender
