import Srtla.Sender.Calls

/-!
# Which datagrams reach the SRT caller and revive a link (`src/sender.cpp:329-433`)

`handle_srtla_data` treats REG_NGP and REG2 before it sets `last_rcvd`, returns
from the `switch` for the other SRTLA types it names, and hands everything that
falls out of the `switch` to the SRT caller. The `switch` names neither REG1 nor
the two refusals REG_ERR and REG_NAK: they set `last_rcvd`, which makes a link
that was timed out usable again, and they are sent to the caller.

Results:
* `dispatch_of_unnamed`: what the `switch` does not name goes to the caller.
* `kept_from_caller_iff`: the SRTLA datagrams that stay with the sender, and the
  refusals that leave `last_rcvd` alone, are those of the other types.
* `refusal_revives`: a REG_ERR goes to the caller and makes its link usable.
-/

namespace Srtla.Sender

open Lib

/-- The types of `src/common.h:35-42`. -/
def srtlaTypes : List ℕ :=
  [srtlaTypeKeepalive, srtlaTypeAck, srtlaTypeReg1, srtlaTypeReg2, srtlaTypeReg3, srtlaTypeRegErr,
    srtlaTypeRegNgp, srtlaTypeRegNak]

/-- The SRTLA types that `handle_srtla_data` does not name. -/
def unnamedTypes : List ℕ := [srtlaTypeReg1, srtlaTypeRegErr, srtlaTypeRegNak]

/-- The types that the `switch` names. -/
def switchTypes : List ℕ :=
  [srtTypeAck, srtTypeNak, srtlaTypeAck, srtlaTypeKeepalive, srtlaTypeReg3]

variable {s : State} {c : Conn} {buf : Mem} {n ts : ℤ} {ret : ℕ → ℤ} {fuel : ℕ}
  {r : State × List Effect}

/-! ## The `switch` -/

theorem dispatch_of_unnamed (h : getSrtType buf n ∉ switchTypes) :
    dispatch s buf n fuel = some (s, [.caller s.srtAddr (window buf 0 n.toNat)]) := by
  simp only [switchTypes, List.mem_cons, List.not_mem_nil, or_false, not_or] at h
  obtain ⟨hack, hnak, hsack, hkeep, hreg3⟩ := h
  unfold dispatch
  dsimp only
  rw [if_neg hack, if_neg hnak, if_neg hsack, if_neg hkeep, if_neg hreg3]

/-- The SRTLA types that the `switch` names return from it. -/
theorem dispatch_silent (h : getSrtType buf n ∈ [srtlaTypeAck, srtlaTypeKeepalive, srtlaTypeReg3])
    (hr : dispatch s buf n fuel = some r) : r.2 = [] := by
  have hack : getSrtType buf n ≠ srtTypeAck := fun e => absurd (e ▸ h) (by decide)
  have hnak : getSrtType buf n ≠ srtTypeNak := fun e => absurd (e ▸ h) (by decide)
  simp only [List.mem_cons, List.not_mem_nil, or_false] at h
  unfold dispatch at hr
  dsimp only at hr
  rw [if_neg hack, if_neg hnak] at hr
  split_ifs at hr with hsack hkeep hreg3
  · rw [← Option.some.inj hr]
  · rw [← Option.some.inj hr]
  · rw [← Option.some.inj hr]
  · exact absurd h (by tauto)

/-! ## What goes to the caller -/

theorem sendto_not_caller (s : State) (c : Conn) (b : Bytes) (ret : ℤ) :
    ∀ dst b', Effect.caller dst b' ∉ (s.sendto c b ret).2 := by
  intro dst b' hm
  cases List.mem_singleton.mp hm

theorem onRegNgp_not_caller (s : State) (c : Conn) (ts : ℤ) (ret : ℕ → ℤ) :
    ∀ dst b, Effect.caller dst b ∉ (onRegNgp s c ts ret).2 := by
  unfold onRegNgp State.sendReg1
  dsimp only
  intro dst b hm
  split_ifs at hm
  all_goals first
    | exact sendto_not_caller _ _ _ _ _ _ hm
    | cases hm

theorem onReg2_not_caller (s : State) (c : Conn) (buf : Mem) (ts : ℤ) (ret : ℕ → ℤ) :
    ∀ dst b, Effect.caller dst b ∉ (onReg2 s c buf ts ret).2 := by
  intro dst b hm
  rcases (onReg2_cases s c buf ts ret).2 with ⟨heq, _⟩ | ⟨_, _, _, heff⟩
  · rw [heq] at hm
    cases hm
  · rw [heff] at hm
    obtain ⟨i, _, hm⟩ := List.mem_flatMap.mp hm
    unfold State.sendReg2 at hm
    split_ifs at hm
    · cases hm
    · exact sendto_not_caller _ _ _ _ _ _ hm

/-- The three types that `handle_srtla_data` does not name fall through to the caller. -/
theorem handleSrtlaData_unnamed (h : getSrtType buf n ∈ unnamedTypes) :
    handleSrtlaData s c buf n ts ret fuel =
      some (s.putConn { c with lastRcvd := ts }, [.caller s.srtAddr (window buf 0 n.toNat)]) := by
  have hn : ¬ n ≤ 0 := by
    intro hn
    rw [getSrtType, if_pos (by omega)] at h
    exact absurd h (by decide)
  have hngp : getSrtType buf n ≠ srtlaTypeRegNgp := fun e => absurd (e ▸ h) (by decide)
  have hreg2 : getSrtType buf n ≠ srtlaTypeReg2 := fun e => absurd (e ▸ h) (by decide)
  have hswitch : getSrtType buf n ∉ switchTypes := by
    simp only [unnamedTypes, List.mem_cons, List.not_mem_nil, or_false] at h
    rcases h with h | h | h <;> rw [h] <;> decide
  rw [handleSrtlaData, if_neg hn, if_neg hngp, if_neg hreg2, dispatch_of_unnamed hswitch]
  rfl

/-- The other SRTLA types do not. -/
theorem handleSrtlaData_not_caller (htype : getSrtType buf n ∈ srtlaTypes)
    (hnamed : getSrtType buf n ∉ unnamedTypes) (h : handleSrtlaData s c buf n ts ret fuel = some r) :
    ∀ dst b, Effect.caller dst b ∉ r.2 := by
  unfold handleSrtlaData at h
  split_ifs at h with hn hngp hreg2
  · rw [← Option.some.inj h]
    exact fun _ _ => List.not_mem_nil
  · rw [← Option.some.inj h]
    exact onRegNgp_not_caller s c ts ret
  · rw [← Option.some.inj h]
    exact onReg2_not_caller s c buf ts ret
  · have hsilent : getSrtType buf n ∈ [srtlaTypeAck, srtlaTypeKeepalive, srtlaTypeReg3] := by
      simp only [srtlaTypes, unnamedTypes, List.mem_cons, List.not_mem_nil, or_false] at htype hnamed ⊢
      tauto
    rw [dispatch_silent hsilent h]
    exact fun _ _ => List.not_mem_nil

/-! ## Links that are timed out -/

/-- `select_conn` passes over links that are timed out. -/
theorem selectLoop_filter {t maxScore : ℤ} {minC : Option Conn} {p : Conn → Bool} {conns : List Conn}
    (h : ∀ x ∈ conns, p x = false → x.timedOut t) :
    selectLoop t (conns.filter p) maxScore minC = selectLoop t conns maxScore minC := by
  induction conns generalizing maxScore minC with
  | nil => rfl
  | cons x cs ih =>
    have ih := fun maxScore minC => @ih maxScore minC fun y hy => h y (List.mem_cons_of_mem _ hy)
    cases hp : p x with
    | false =>
      rw [List.filter_cons_of_neg (by rw [hp]; exact Bool.false_ne_true), ih, selectLoop,
        if_pos (h x List.mem_cons_self hp)]
    | true =>
      rw [List.filter_cons_of_pos hp, selectLoop, selectLoop]
      simp only [ih]

/-- The selection is what it would be without the link. -/
def Skipped (c : Conn) (conns : List Conn) (t : ℤ) : Prop :=
  selectConn (conns.filter fun x => decide (x ≠ c)) (some t) = selectConn conns (some t)

theorem skipped_of_timedOut {t : ℤ} (h : c.timedOut t) (conns : List Conn) : Skipped c conns t := by
  unfold Skipped selectConn
  dsimp only
  rw [selectLoop_filter]
  intro x _ hx
  rw [of_not_not (of_decide_eq_false hx)]
  exact h

variable {ref : ℕ}

/-- **Three types are not kept.** A datagram of an SRTLA type is not sent to the
    SRT caller, and a refusal leaves `last_rcvd` of its link alone, so that the
    link is still passed over if it was timed out, iff the type is none of REG1,
    REG_ERR and REG_NAK. -/
theorem kept_from_caller_iff (hget : Keyed.get Conn.ref ref s.conns = some c)
    (h : step s (.srtlaData ref buf n ts ret fuel) = some r) :
    ((getSrtType buf n ∈ srtlaTypes → ∀ dst b, Effect.caller dst b ∉ r.2) ∧
      (getSrtType buf n = srtlaTypeRegNgp ∨ getSrtType buf n = srtlaTypeRegErr →
        ∃ c', Keyed.get Conn.ref ref r.1.conns = some c' ∧ c'.lastRcvd = c.lastRcvd ∧
          ∀ t, c.timedOut t → Skipped c' r.1.conns t)) ↔
      getSrtType buf n ∉ unnamedTypes := by
  have hhandle := step_srtlaData hget h
  constructor
  · rintro ⟨hkept, _⟩ hunnamed
    rw [handleSrtlaData_unnamed hunnamed] at hhandle
    have htype : getSrtType buf n ∈ srtlaTypes := by
      simp only [unnamedTypes, List.mem_cons, List.not_mem_nil, or_false] at hunnamed
      rcases hunnamed with hu | hu | hu <;> rw [hu] <;> decide
    refine hkept htype s.srtAddr (window buf 0 n.toNat) ?_
    rw [← Option.some.inj hhandle]
    exact List.mem_singleton_self _
  · intro hnamed
    refine ⟨fun htype => handleSrtlaData_not_caller htype hnamed hhandle, fun hrefused => ?_⟩
    rcases hrefused with hngp | herr
    · -- a REG_NGP changes no link
      have hn : ¬ n ≤ 0 := by
        intro hn
        rw [getSrtType, if_pos (by omega)] at hngp
        cases hngp
      rw [handleSrtlaData, if_neg hn, if_pos hngp] at hhandle
      obtain rfl := Option.some.inj hhandle
      rw [(onRegNgp_frame s c ts ret).2.1]
      exact ⟨c, hget, rfl, fun t ht => skipped_of_timedOut ht s.conns⟩
    · rw [herr] at hnamed
      exact absurd (by decide) hnamed

theorem kept_from_caller_ngp :
    ∃ s r, start oneLink = some s ∧
      step s (.srtlaData 0 (mem (putBe16 srtlaTypeRegNgp)) 2 100 (fun _ => 0) 0) = some r ∧
      (∀ dst b, Effect.caller dst b ∉ r.2) ∧
      ∃ c', Keyed.get Conn.ref 0 r.1.conns = some c' ∧ c'.lastRcvd = oneLinkConn.lastRcvd ∧
        ∀ t, oneLinkConn.timedOut t → Skipped c' r.1.conns t := by
  obtain ⟨s, hs, hconns, hexited⟩ := start_oneLink
  have hget := get_only_link hconns rfl
  obtain ⟨r, hstep, _⟩ := step_datagram hexited hget (by decide)
    (mem (putBe16 srtlaTypeRegNgp)) 2 100 (fun _ => 0) 0 fun htype => absurd htype (by decide)
  obtain ⟨hkept, hrefused⟩ := (kept_from_caller_iff hget hstep).mpr (by decide)
  exact ⟨s, r, hs, hstep, hkept (by decide), hrefused (Or.inl (by decide))⟩

/-- The receiver refuses the only link of a sender with a REG_ERR. The refusal
    goes to the SRT caller, and the link, which was timed out, can be selected. -/
theorem refusal_revives :
    ∃ s r, start oneLink = some s ∧
      step s (.srtlaData 0 (mem (putBe16 srtlaTypeRegErr)) 2 100 (fun _ => 0) 0) = some r ∧
      Effect.caller s.srtAddr (putBe16 srtlaTypeRegErr) ∈ r.2 ∧ s.conns = [oneLinkConn] ∧
      oneLinkConn.lastRcvd = 0 ∧ selectConn s.conns (some 100) = none ∧
      ∃ c, selectConn r.1.conns (some 100) = some c ∧ c.ref = oneLinkConn.ref ∧ c.lastRcvd = 100 := by
  obtain ⟨s, hs, hconns, hexited⟩ := start_oneLink
  have hget := get_only_link hconns rfl
  obtain ⟨r, hstep, _⟩ := step_datagram hexited hget (by decide)
    (mem (putBe16 srtlaTypeRegErr)) 2 100 (fun _ => 0) 0 fun htype => absurd htype (by decide)
  have hhandle := step_srtlaData hget hstep
  rw [handleSrtlaData_unnamed (by decide)] at hhandle
  refine ⟨s, r, hs, hstep, ?_, hconns, rfl, ?_, { oneLinkConn with lastRcvd := 100, lastSent := 100 }, ?_,
    rfl, rfl⟩
  · rw [← Option.some.inj hhandle]
    exact List.mem_singleton_self _
  · rw [hconns]
    rfl
  · have hconns' : r.1.conns = [{ oneLinkConn with lastRcvd := 100 }] := by
      rw [← Option.some.inj hhandle]
      show Keyed.put Conn.ref _ s.conns = _
      rw [hconns]
      rfl
    rw [hconns']
    rfl

end Srtla.Sender
