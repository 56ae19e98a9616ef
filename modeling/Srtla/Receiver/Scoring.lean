import Srtla.Receiver.Statistics

/-!
# What evaluations leave for the next one

`evaluate_group` keeps what it needs for the next evaluation of a connection in fields
that nothing else writes, such as `last_eval_time` and `last_sender_nak_count`. Such a
field is determined by the evaluations that have scored the connection, in their order.

* `notes`: what the evaluations that scored a connection in a run have found.
* `Kept`: a field that scoring alone writes; `Kept.run`, `Kept.call`: its value in every
  run, at the end and at every call of `evaluate_group`.
-/

namespace Srtla.Receiver

open Lib

variable {α β : Type*} {s : State} {op : Op} {e : Evaluation} {c x y : Connection} {ms : UInt64}
  {field : ConnectionStats → α} {note : Evaluation → UInt64 → Connection → β} {value : List β → α}

/-! ## Notes of a call -/

/-- The note that the call makes of the connection `r`, if it scores it. -/
def Evaluation.noted (note : Evaluation → UInt64 → Connection → β) (e : Evaluation) (r : ℕ) : Option β :=
  match e.reading with
  | some ms => (e.group.conns.find? fun c => decide (c.ref = r ∧ e.Past c)).map (note e ms)
  | none => none

/-- The notes that the calls of a run make of the connection `r`. -/
def notes (note : Evaluation → UInt64 → Connection → β) (r : ℕ) (es : List (Machine.Event State Op Effect)) :
    List β :=
  es.flatMap fun ev => (ev.pre.evaluations ev.input).filterMap fun e => e.noted note r

theorem notes_append (note : Evaluation → UInt64 → Connection → β) (r : ℕ)
    (es es' : List (Machine.Event State Op Effect)) : notes note r (es ++ es') = notes note r es ++ notes note r es' :=
  List.flatMap_append

theorem notes_concat (note : Evaluation → UInt64 → Connection → β) (r : ℕ)
    (es : List (Machine.Event State Op Effect)) (ev : Machine.Event State Op Effect) :
    notes note r (es ++ [ev]) =
      notes note r es ++ (ev.pre.evaluations ev.input).filterMap fun e => e.noted note r := by
  unfold notes
  rw [List.flatMap_append, List.flatMap_singleton]

theorem notes_eq_nil {es : List (Machine.Event State Op Effect)} {r : ℕ}
    (h : ∀ ev ∈ es, ev.pre.evaluations ev.input = []) : notes note r es = [] :=
  List.flatMap_eq_nil_iff.mpr fun ev hev => by rw [h ev hev]; rfl

theorem Evaluation.noted_of_apart {r : ℕ} (h : ∀ z ∈ e.group.conns, z.ref ≠ r) : e.noted note r = none := by
  have hfind : (e.group.conns.find? fun c => decide (c.ref = r ∧ e.Past c)) = none :=
    List.find?_eq_none.mpr fun z hz hr => h z hz (of_decide_eq_true hr).1
  unfold Evaluation.noted
  rw [hfind]
  cases e.reading <;> rfl

theorem Evaluation.noted_of_mem (hnodup : (e.group.conns.map Connection.ref).Nodup) (hc : c ∈ e.group.conns) :
    e.noted note c.ref = if e.Past c then e.reading.map fun ms => note e ms c else none := by
  have hfind : (e.group.conns.find? fun z => decide (z.ref = c.ref ∧ e.Past z)) =
      if e.Past c then some c else none := by
    split_ifs with hpast
    · have hsome : (e.group.conns.find? fun z => decide (z.ref = c.ref ∧ e.Past z)).isSome :=
        List.find?_isSome.mpr ⟨c, hc, decide_eq_true ⟨rfl, hpast⟩⟩
      obtain ⟨z, hz⟩ := Option.isSome_iff_exists.mp hsome
      have hmatch := List.find?_some hz
      rw [decide_eq_true_eq] at hmatch
      rw [hz, Keyed.eq_of_key_eq hnodup (List.mem_of_find?_eq_some hz) hc hmatch.1]
    · refine List.find?_eq_none.mpr fun z hz hr => hpast ?_
      obtain ⟨href, hz'⟩ := of_decide_eq_true hr
      rwa [Keyed.eq_of_key_eq hnodup hz hc href] at hz'
  unfold Evaluation.noted
  rw [hfind]
  cases e.reading <;> split_ifs <;> rfl

/-- One call of an input at most makes a note of a connection. -/
theorem filterMap_noted (h : Inv s) (he : e ∈ s.evaluations op) (hx : x ∈ e.group.conns) :
    (s.evaluations op).filterMap (fun e => e.noted note x.ref) = (e.noted note x.ref).toList := by
  obtain ⟨before, after, heq⟩ := List.append_of_mem he
  have hpair := evaluations_pairwise h op
  rw [heq, List.pairwise_append, List.pairwise_cons] at hpair
  have hbefore : before.filterMap (fun e => e.noted note x.ref) = [] :=
    List.filterMap_eq_nil_iff.mpr fun e' he' => Evaluation.noted_of_apart fun z hz =>
      hpair.2.2 e' he' e List.mem_cons_self z hz x hx
  have hafter : after.filterMap (fun e => e.noted note x.ref) = [] :=
    List.filterMap_eq_nil_iff.mpr fun e' he' => Evaluation.noted_of_apart fun z hz =>
      (hpair.2.1.1 e' he' x hx z hz).symm
  rw [heq, List.filterMap_append, hbefore, List.nil_append, List.filterMap_cons]
  cases e.noted note x.ref with
  | none => exact hafter
  | some n => rw [hafter]; rfl

/-! ## Fields that scoring alone writes -/

/-- A field that neither keepalives nor counters touch is left alone by packets. -/
theorem ConnectionStats.count_keeps
    (htelemetry : ∀ (st : ConnectionStats) info now, field (st.updateConnectionTelemetry info now) = field st)
    (hreceived : ∀ (st : ConnectionStats) n, field (st.onPacketReceived n) = field st)
    (hnak : ∀ (st : ConnectionStats) n, field (st.onNakDetected n) = field st) (st : ConnectionStats) (buf : Bytes)
    (accepted : Bool) (now : ℤ) : field (st.count buf accepted now) = field st := by
  unfold ConnectionStats.count
  split_ifs
  · cases parseKeepaliveConnInfo (mem buf) buf.length with
    | none => rfl
    | some info => exact htelemetry st info now
  · rfl
  · rw [hnak, hreceived]
  · exact hreceived st buf.length

/-- Neither packets nor weights change the field, and a call that scores a connection
    makes it the `value` of the notes so far and its own. -/
structure Kept (field : ConnectionStats → α) (note : Evaluation → UInt64 → Connection → β)
    (value : List β → α) : Prop where
  init : field {} = value []
  count : ∀ (st : ConnectionStats) (buf : Bytes) (accepted : Bool) (now : ℤ),
    field (st.count buf accepted now) = field st
  weight : ∀ (st : ConnectionStats) (weight : UInt8), field { st with weightPercent := weight } = field st
  score : ∀ (e : Evaluation) (ms : UInt64) (c : Connection) (before : List β), field c.stats = value before →
    field (c.stats.score (e.group.median ms) (minExpectedKbits e.group.conns.length) e.time ms) =
      value (before ++ [note e ms c])

/-- The fields follow the notes of a run. -/
structure Recorded (field : ConnectionStats → α) (note : Evaluation → UInt64 → Connection → β)
    (value : List β → α) (es : List (Machine.Event State Op Effect)) (s : State) : Prop where
  inv : Inv s
  conns : ∀ g ∈ s.groups, ∀ c ∈ g.conns, field c.stats = value (notes note c.ref es)
  fresh : ∀ r, s.nextRef ≤ r → notes note r es = []

theorem Kept.counts (h : Kept field note value) (hcounts : Counts s y x op) : field x.stats = field y.stats := by
  cases hcounts with
  | same account => rw [show x.stats = y.stats from congrArg (fun a => a.2.2) account]
  | packet _ account =>
    rw [show x.stats = _ from congrArg (fun a => a.2.2) account]
    exact h.count _ _ _ _

theorem Kept.conn (h : Kept field note value) (hnodup : (e.group.conns.map Connection.ref).Nodup)
    (hx : x ∈ e.group.conns) {before : List β} (hfield : field x.stats = value before) :
    field (e.conn x).stats = value (before ++ (e.noted note x.ref).toList) := by
  rw [Evaluation.noted_of_mem hnodup hx]
  rcases e.conn_cases x with ⟨heq, hnot⟩ | ⟨ms, hms, hpast, heq⟩
  · have hnone : (if e.Past x then e.reading.map fun ms => note e ms x else none) = none := by
      split_ifs with hpast
      · cases hms : e.reading with
        | none => rfl
        | some ms => exact absurd hpast (hnot ms hms)
      · rfl
    rw [heq, hnone, Option.toList_none, List.append_nil, hfield]
  · rw [heq, if_pos hpast, hms, Option.map_some, Option.toList_some]
    exact h.score e ms x before hfield

theorem Recorded.step (hkept : Kept field note value) {es : List (Machine.Event State Op Effect)}
    (h : Recorded field note value es s) (op : Op) (outs : List Effect) :
    Recorded field note value (es ++ [⟨s, op, outs⟩]) (step s op).1 where
  inv := run_inv h.inv [op]
  conns := by
    intro g' hg' x' hx'
    rw [notes_concat]
    cases step_stats h.inv hg' hx' with
    | fresh ref stats calls =>
      rw [h.fresh x'.ref ref.ge, stats, calls]
      exact hkept.init
    | @counted g y hg hy counts calls =>
      have hnone : (s.evaluations op).filterMap (fun e => e.noted note x'.ref) = [] :=
        List.filterMap_eq_nil_iff.mpr fun e he => Evaluation.noted_of_apart fun z hz =>
          counts.ref ▸ calls e he z hz
      rw [hnone, List.append_nil, hkept.counts counts, h.conns g hg y hy, counts.ref]
    | @evaluated g y x e _ hg hy counts call hx account =>
      -- the packet is counted before the call, the weight is written after it
      have href : x'.ref = x.ref := congrArg Prod.fst account
      have hbefore : field x.stats = value (notes note x.ref es) := by
        rw [hkept.counts counts, h.conns g hg y hy, counts.ref]
      rw [href, filterMap_noted h.inv call hx, show x'.stats = _ from congrArg (fun a => a.2.2) account,
        hkept.weight]
      exact hkept.conn (evaluations_spec h.inv call).1 hx hbefore
  fresh := by
    intro r hr
    have hold : s.nextRef ≤ r := (run_nextRef_le h.inv [op]).trans hr
    rw [notes_concat, h.fresh r hold, List.nil_append, List.filterMap_eq_nil_iff]
    intro e he
    obtain ⟨_, g, hg, hcounts⟩ := evaluations_spec h.inv he
    refine Evaluation.noted_of_apart fun z hz => ?_
    obtain ⟨y, hy, hzy⟩ := hcounts z hz
    have hlt := (h.inv.wf g hg).connRefs_lt y hy
    rw [hzy.ref]
    omega

/-- **A field that scoring alone writes is the value of the notes of the run.** -/
theorem Kept.run (h : Kept field note value) (ops : List Op) :
    Recorded field note value (receiver.hist State.init ops) (receiver.run State.init ops) :=
  receiver.hist_invariant ⟨inv_init, fun _ hg => absurd hg List.not_mem_nil, fun _ _ => rfl⟩
    (fun _ s op hrec => hrec.step h op (receiver.step s op).2) ops

/-- The field as the next call finds it. -/
theorem Kept.call (h : Kept field note value) (ops : List Op)
    (he : e ∈ (receiver.run State.init ops).evaluations op) (hc : c ∈ e.group.conns) :
    field c.stats = value (notes note c.ref (receiver.hist State.init ops)) := by
  have hrec := h.run ops
  obtain ⟨_, g, hg, hcounts⟩ := evaluations_spec hrec.inv he
  obtain ⟨y, hy, hyc⟩ := hcounts c hc
  rw [h.counts hyc, hrec.conns g hg y hy, hyc.ref]

end Srtla.Receiver
