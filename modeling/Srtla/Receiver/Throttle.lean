import Srtla.Lib.Machine
import Srtla.Lib.Table
import Srtla.Receiver.RateLimiter

/-!
# The throttle for authentication failures, over runs

`AuthRateLimiter` keeps for every IP one counter, the start of the window it
counts in, and the end of a block. The runs are the sequences of calls to
`record_failure`, `is_blocked` and `cleanup`.

* `blocked_for_cause`: an IP is blocked only after `AUTH_FAIL_THRESHOLD` of its
  own failures within `AUTH_FAIL_WINDOW` seconds.
* `cleanup_invisible`: the calls to `cleanup` change no answer.
* `five_failures_block_iff`: when `AUTH_FAIL_THRESHOLD` failures within
  `AUTH_FAIL_WINDOW` seconds block.

**Deviation from the documentation.** `docs/COMPATIBILITY.md` says that five
rejections inside 60 s block. The windows of the limiter are laid end to end: a
failure that comes more than 60 s after the first one of a window opens a new
window and forgets the others, also those of the last 60 s
(`failures_across_windows`).
-/

namespace Srtla.Receiver

open Lib

/-! ## Entries -/

namespace LimiterEntry

/-- There is no window, or it is over: the next failure opens a new one. -/
def Expired (e : LimiterEntry) (now : ℤ) : Prop :=
  e.windowStart = 0 ∨ now - e.windowStart > authFailWindow

instance (e : LimiterEntry) (now : ℤ) : Decidable (e.Expired now) := inferInstanceAs (Decidable (_ ∨ _))

/-- The entry with the window in which a failure at `now` is counted. -/
def window (e : LimiterEntry) (now : ℤ) : LimiterEntry :=
  if e.Expired now then { e with windowStart := now, failures := 0 } else e

/-- A failure at `now` reaches the threshold. -/
def Trips (e : LimiterEntry) (now : ℤ) : Prop := (e.window now).failures + 1 ≥ authFailThreshold

instance (e : LimiterEntry) (now : ℤ) : Decidable (e.Trips now) := inferInstanceAs (Decidable (_ ≥ _))

/-- The entry after a failure at `now`. -/
def record (e : LimiterEntry) (now : ℤ) : LimiterEntry :=
  if e.Trips now then { failures := 0, windowStart := 0, blockedUntil := now + authFailCooldown }
  else { e.window now with failures := (e.window now).failures + 1 }

/-- What is left of the entry at `now`: a window that is over and a block that
    has ended are as good as none. -/
def live (e : LimiterEntry) (now : ℤ) : LimiterEntry where
  failures := if e.Expired now then 0 else e.failures
  windowStart := if e.Expired now then 0 else e.windowStart
  blockedUntil := if e.blockedUntil > now then e.blockedUntil else 0

variable {e : LimiterEntry} {now t : ℤ}

theorem window_of_expired (h : e.Expired now) :
    e.window now = { e with windowStart := now, failures := 0 } := if_pos h

theorem window_of_not_expired (h : ¬ e.Expired now) : e.window now = e := if_neg h

theorem window_blockedUntil (e : LimiterEntry) (now : ℤ) :
    (e.window now).blockedUntil = e.blockedUntil := by
  unfold window
  split_ifs <;> rfl

theorem record_of_trips (h : e.Trips now) :
    e.record now = { failures := 0, windowStart := 0, blockedUntil := now + authFailCooldown } := if_pos h

theorem record_of_not_trips (h : ¬ e.Trips now) :
    e.record now = { e.window now with failures := (e.window now).failures + 1 } := if_neg h

theorem keepEntry_iff : AuthRateLimiter.keepEntry now e = true ↔ e.blockedUntil > now ∨ ¬ e.Expired now := by
  simp [AuthRateLimiter.keepEntry, Expired]

end LimiterEntry

namespace AuthRateLimiter

variable {l : AuthRateLimiter} {addr : SockaddrStorage} {now : ℤ} {k : Bytes}

/-- The entry under a key, as `entries_[key]` would create it. -/
def entry (l : AuthRateLimiter) (k : Bytes) : LimiterEntry := (l.lookup k).getD {}

theorem recordFailure_eq (l : AuthRateLimiter) (addr : SockaddrStorage) (now : ℤ) :
    l.recordFailure addr now = l.insert (keyFor addr) ((l.entry (keyFor addr)).record now) := rfl

theorem entry_recordFailure_self (l : AuthRateLimiter) (addr : SockaddrStorage) (now : ℤ) :
    (l.recordFailure addr now).entry (keyFor addr) = (l.entry (keyFor addr)).record now := by
  rw [recordFailure_eq, entry, AList.lookup_insert]
  rfl

theorem entry_recordFailure_of_ne (h : k ≠ keyFor addr) :
    (l.recordFailure addr now).entry k = l.entry k := by
  rw [recordFailure_eq, entry, AList.lookup_insert_ne h, entry]

/-- A call for one key leaves the entries under the others alone. -/
theorem entry_recordFailure (l : AuthRateLimiter) (addr : SockaddrStorage) (now : ℤ) (k : Bytes) :
    (l.recordFailure addr now).entry k =
      if k = keyFor addr then (l.entry k).record now else l.entry k := by
  split_ifs with h
  · rw [h, entry_recordFailure_self]
  · exact entry_recordFailure_of_ne h

/-- `cleanup` keeps an entry or leaves a fresh one in its place. -/
theorem entry_cleanup (l : AuthRateLimiter) (now : ℤ) (k : Bytes) :
    (l.cleanup now).entry k = if keepEntry now (l.entry k) = true then l.entry k else {} := by
  rw [entry, cleanup, Table.lookup_filter, entry]
  cases l.lookup k with
  | none => exact (ite_self _).symm
  | some e =>
    rw [Option.filter_some, Option.getD_some]
    split_ifs <;> rfl

theorem isBlocked_eq (hnow : 0 ≤ now) :
    l.isBlocked addr now = decide ((l.entry (keyFor addr)).blockedUntil > now) := by
  unfold isBlocked entry
  cases l.lookup (keyFor addr) with
  | none => exact (decide_eq_false (not_lt.mpr hnow)).symm
  | some e => rfl

end AuthRateLimiter

/-! ## Runs -/

/-- The calls to the limiter. -/
inductive LimiterCall
  | recordFailure (addr : SockaddrStorage) (now : ℤ)
  | isBlocked (addr : SockaddrStorage) (now : ℤ)
  | cleanup (now : ℤ)
deriving DecidableEq

namespace LimiterCall

def time : LimiterCall → ℤ
  | recordFailure _ now | isBlocked _ now | cleanup now => now

def isCleanup : LimiterCall → Bool
  | cleanup _ => true
  | _ => false

end LimiterCall

/-- The limiter; its outputs are the answers of `is_blocked`. -/
def throttle : Machine AuthRateLimiter LimiterCall Bool where
  init := ∅
  step l
    | .recordFailure addr now => (l.recordFailure addr now, [])
    | .isBlocked addr now => (l, [l.isBlocked addr now])
    | .cleanup now => (l.cleanup now, [])

/-- The limiter after the calls. -/
def throttled (calls : List LimiterCall) : AuthRateLimiter := throttle.run ∅ calls

/-- The clock readings of the calls start at `t₀` or later and do not decrease. -/
def TimedFrom (t₀ : ℤ) (calls : List LimiterCall) : Prop :=
  (t₀ :: calls.map LimiterCall.time).Pairwise (· ≤ ·)

instance (t₀ : ℤ) (calls : List LimiterCall) : Decidable (TimedFrom t₀ calls) :=
  inferInstanceAs (Decidable (List.Pairwise _ _))

/-- The last reading of the clock. -/
def lastTime (t₀ : ℤ) (calls : List LimiterCall) : ℤ := (t₀ :: calls.map LimiterCall.time).getLast (by simp)

section Runs

variable {t₀ : ℤ} {calls : List LimiterCall} {c : LimiterCall}

theorem lastTime_concat : lastTime t₀ (calls ++ [c]) = c.time := by
  simp [lastTime]

theorem TimedFrom.le_lastTime (h : TimedFrom t₀ calls) {t : ℤ}
    (ht : t ∈ t₀ :: calls.map LimiterCall.time) : t ≤ lastTime t₀ calls :=
  List.Pairwise.rel_getLast h ht

theorem timedFrom_concat :
    TimedFrom t₀ (calls ++ [c]) ↔ TimedFrom t₀ calls ∧ lastTime t₀ calls ≤ c.time := by
  rw [TimedFrom, List.map_append, ← List.cons_append, List.pairwise_append]
  constructor
  · rintro ⟨h, _, hlast⟩
    exact ⟨h, hlast _ (List.getLast_mem _) _ (List.mem_singleton_self _)⟩
  · rintro ⟨h, hlast⟩
    refine ⟨h, List.pairwise_singleton _ _, fun t ht u hu => ?_⟩
    rw [List.mem_singleton.mp hu]
    exact (h.le_lastTime ht).trans hlast

theorem throttled_concat : throttled (calls ++ [c]) = (throttle.step (throttled calls) c).1 :=
  throttle.run_concat _ _ _

/-- What the calls do to the entry under one key. -/
theorem entry_throttled_concat (k : Bytes) :
    (throttled (calls ++ [c])).entry k =
      match c with
      | .recordFailure addr now =>
        if k = keyFor addr then ((throttled calls).entry k).record now else (throttled calls).entry k
      | .isBlocked _ _ => (throttled calls).entry k
      | .cleanup now =>
        if AuthRateLimiter.keepEntry now ((throttled calls).entry k) = true then
          (throttled calls).entry k
        else {} := by
  rw [throttled_concat]
  cases c with
  | recordFailure addr now => exact AuthRateLimiter.entry_recordFailure _ addr now k
  | isBlocked addr now => rfl
  | cleanup now => exact AuthRateLimiter.entry_cleanup _ now k

/-- An invariant of the calls so far and the entry under `k`: it is kept when a
    failure is recorded for `k`, when a call leaves the entry alone, and when
    `cleanup` erases it. -/
theorem entry_invariant {I : List LimiterCall → LimiterEntry → Prop} {k : Bytes} (h0 : I [] {})
    (hrecord : ∀ calls addr now, TimedFrom t₀ calls → lastTime t₀ calls ≤ now → keyFor addr = k →
      I calls ((throttled calls).entry k) →
      I (calls ++ [.recordFailure addr now]) (((throttled calls).entry k).record now))
    (hidle : ∀ calls c, TimedFrom t₀ calls → lastTime t₀ calls ≤ c.time →
      (∀ addr now, c = .recordFailure addr now → keyFor addr ≠ k) →
      I calls ((throttled calls).entry k) → I (calls ++ [c]) ((throttled calls).entry k))
    (herase : ∀ calls now, TimedFrom t₀ calls → lastTime t₀ calls ≤ now →
      ¬ AuthRateLimiter.keepEntry now ((throttled calls).entry k) = true →
      I calls ((throttled calls).entry k) → I (calls ++ [.cleanup now]) {})
    (h : TimedFrom t₀ calls) : I calls ((throttled calls).entry k) := by
  induction calls using List.reverseRecOn with
  | nil => exact h0
  | append_singleton calls c ih =>
    obtain ⟨hcalls, hle⟩ := timedFrom_concat.mp h
    have hI := ih hcalls
    rw [entry_throttled_concat]
    cases c with
    | recordFailure addr now =>
      dsimp only
      split_ifs with hk
      · exact hrecord calls addr now hcalls hle hk.symm hI
      · refine hidle calls _ hcalls hle (fun addr' now' heq => ?_) hI
        obtain ⟨rfl, rfl⟩ := LimiterCall.recordFailure.inj heq
        exact fun hk' => hk hk'.symm
    | isBlocked addr now => exact hidle calls _ hcalls hle (fun _ _ heq => by cases heq) hI
    | cleanup now =>
      dsimp only
      split_ifs with hkeep
      · exact hidle calls _ hcalls hle (fun _ _ heq => by cases heq) hI
      · exact herase calls now hcalls hle hkeep hI

end Runs

/-! ## Cleanup -/

namespace LimiterEntry

variable {e e' : LimiterEntry} {now t : ℤ}

theorem Expired.mono (h : e.Expired t) (hle : t ≤ now) : e.Expired now := by
  unfold Expired at *
  omega

theorem expired_live (hle : t ≤ now) : (e.live t).Expired now ↔ e.Expired now := by
  by_cases h : e.Expired t
  · exact ⟨fun _ => h.mono hle, fun _ => Or.inl (if_pos h)⟩
  · have hstart : (e.live t).windowStart = e.windowStart := if_neg h
    unfold Expired
    rw [hstart]

theorem blocked_live (hnow : 0 ≤ now) (hle : t ≤ now) :
    (e.live t).blockedUntil > now ↔ e.blockedUntil > now := by
  show (if e.blockedUntil > t then e.blockedUntil else 0) > now ↔ _
  split_ifs <;> omega

/-- What is left later is left of what is left now. -/
theorem live_live (hle : t ≤ now) : (e.live t).live now = e.live now := by
  have hexp := expired_live (e := e) hle
  have hblocked : (if (e.live t).blockedUntil > now then (e.live t).blockedUntil else 0) =
      if e.blockedUntil > now then e.blockedUntil else 0 := by
    dsimp only [live]
    split_ifs <;> omega
  rw [live, hblocked]
  by_cases h : e.Expired now
  · rw [if_pos (hexp.mpr h), if_pos (hexp.mpr h), live, if_pos h, if_pos h]
  · have ht : ¬ e.Expired t := fun ht => h (ht.mono hle)
    have hfailures : (e.live t).failures = e.failures := if_neg ht
    have hstart : (e.live t).windowStart = e.windowStart := if_neg ht
    rw [if_neg (mt hexp.mp h), if_neg (mt hexp.mp h), hfailures, hstart, live, if_neg h, if_neg h]

theorem window_live (e : LimiterEntry) (now : ℤ) :
    (e.live now).window now = { e.window now with blockedUntil := (e.live now).blockedUntil } := by
  have hexp := expired_live (e := e) (le_refl now)
  by_cases h : e.Expired now
  · rw [window_of_expired (hexp.mpr h), window_of_expired h]
  · rw [window_of_not_expired (mt hexp.mp h), window_of_not_expired h, live, if_neg h, if_neg h]

theorem live_congr (hf : e.failures = e'.failures) (hs : e.windowStart = e'.windowStart)
    (hb : e.blockedUntil = (e'.live now).blockedUntil) : e.live now = e'.live now := by
  have hexp : e.Expired now ↔ e'.Expired now := by rw [Expired, Expired, hs]
  have hblocked : (if e.blockedUntil > now then e.blockedUntil else 0) =
      if e'.blockedUntil > now then e'.blockedUntil else 0 := by
    rw [hb]
    dsimp only [live]
    split_ifs <;> omega
  rw [live, live, hf, hs, hblocked]
  simp only [hexp]

/-- A failure looks only at what is left of the entry. -/
theorem live_record (e : LimiterEntry) (now : ℤ) :
    ((e.live now).record now).live now = (e.record now).live now := by
  have hwindow := window_live e now
  have htrips : (e.live now).Trips now ↔ e.Trips now := by
    unfold Trips
    rw [hwindow]
  by_cases h : e.Trips now
  · rw [record_of_trips h, record_of_trips (htrips.mpr h)]
  · rw [record_of_not_trips h, record_of_not_trips (mt htrips.mp h), hwindow]
    refine live_congr rfl rfl ?_
    show (e.live now).blockedUntil = if (e.window now).blockedUntil > now then _ else _
    rw [window_blockedUntil]
    rfl

/-- Nothing is left of an entry that `cleanup` erases. -/
theorem live_cleanup (e : LimiterEntry) (now : ℤ) :
    (if AuthRateLimiter.keepEntry now e = true then e else {}).live now = e.live now := by
  split_ifs with h
  · rfl
  · rw [keepEntry_iff, not_or, not_not] at h
    obtain ⟨hblocked, hexp⟩ := h
    have hfresh : Expired {} now := Or.inl rfl
    rw [live, live, if_pos hfresh, if_pos hexp, if_pos hexp, if_neg hblocked, ite_self]

end LimiterEntry

/-- The calls without those to `cleanup`. -/
def withoutCleanup (calls : List LimiterCall) : List LimiterCall := calls.filter fun c => !c.isCleanup

theorem isBlocked_eq_of_live {l l' : AuthRateLimiter} {addr : SockaddrStorage} {now : ℤ} (hnow : 0 ≤ now)
    (h : (l.entry (keyFor addr)).live now = (l'.entry (keyFor addr)).live now) :
    l.isBlocked addr now = l'.isBlocked addr now := by
  rw [AuthRateLimiter.isBlocked_eq hnow, AuthRateLimiter.isBlocked_eq hnow]
  refine decide_eq_decide.mpr ?_
  rw [← LimiterEntry.blocked_live hnow le_rfl, h, LimiterEntry.blocked_live hnow le_rfl]

/-- The limiter with and without its cleanups: the answers so far are the same,
    and so is what is left of every entry. -/
structure SameAnswers (calls : List LimiterCall) : Prop where
  outs : throttle.outs ∅ calls = throttle.outs ∅ (withoutCleanup calls)
  live : ∀ k, ((throttled calls).entry k).live (lastTime 0 calls) =
    ((throttled (withoutCleanup calls)).entry k).live (lastTime 0 calls)

theorem outs_concat (calls : List LimiterCall) (c : LimiterCall) :
    throttle.outs ∅ (calls ++ [c]) = throttle.outs ∅ calls ++ (throttle.step (throttled calls) c).2 := by
  rw [Machine.outs_append, Machine.outs_cons, Machine.outs_nil, List.append_nil]
  rfl

theorem withoutCleanup_concat (calls : List LimiterCall) (c : LimiterCall) :
    withoutCleanup (calls ++ [c]) = withoutCleanup calls ++ if c.isCleanup then [] else [c] := by
  rw [withoutCleanup, List.filter_append, List.filter_singleton]
  cases c.isCleanup <;> rfl

theorem sameAnswers {calls : List LimiterCall} (h : TimedFrom 0 calls) : SameAnswers calls := by
  induction calls using List.reverseRecOn with
  | nil => exact ⟨rfl, fun _ => rfl⟩
  | append_singleton calls c ih =>
    obtain ⟨h, hle⟩ := timedFrom_concat.mp h
    have hnow : 0 ≤ c.time := (h.le_lastTime List.mem_cons_self).trans hle
    obtain ⟨houts, hlive⟩ := ih h
    replace hlive : ∀ k, ((throttled calls).entry k).live c.time =
        ((throttled (withoutCleanup calls)).entry k).live c.time := by
      intro k
      rw [← LimiterEntry.live_live hle, hlive k, LimiterEntry.live_live hle]
    constructor
    · rw [withoutCleanup_concat]
      cases c with
      | recordFailure addr now =>
        show _ = throttle.outs ∅ (withoutCleanup calls ++ [_])
        rw [outs_concat, outs_concat, houts]
        rfl
      | isBlocked addr now =>
        show _ = throttle.outs ∅ (withoutCleanup calls ++ [_])
        rw [outs_concat, outs_concat, houts]
        exact congrArg (fun b => _ ++ [b]) (isBlocked_eq_of_live hnow (hlive _))
      | cleanup now =>
        show _ = throttle.outs ∅ (withoutCleanup calls ++ [])
        rw [outs_concat, houts, List.append_nil]
        exact List.append_nil _
    · intro k
      rw [lastTime_concat, withoutCleanup_concat]
      cases c with
      | recordFailure addr now =>
        have hk : ((throttled calls).entry k).live now = _ := hlive k
        show ((throttled (calls ++ [_])).entry k).live now =
          ((throttled (withoutCleanup calls ++ [_])).entry k).live now
        rw [entry_throttled_concat, entry_throttled_concat]
        dsimp only
        split_ifs
        · rw [← LimiterEntry.live_record, hk]
          exact LimiterEntry.live_record _ now
        · exact hk
      | isBlocked addr now =>
        show _ = ((throttled (withoutCleanup calls ++ [_])).entry k).live now
        rw [entry_throttled_concat, entry_throttled_concat]
        exact hlive k
      | cleanup now =>
        show _ = ((throttled (withoutCleanup calls ++ [])).entry k).live now
        rw [entry_throttled_concat, List.append_nil]
        exact (LimiterEntry.live_cleanup _ now).trans (hlive k)

/-- The blocked entries at `t` under a key. -/
theorem any_lookup_eq (l : AuthRateLimiter) {t : ℤ} (ht : 0 ≤ t) (k : Bytes) :
    (l.lookup k).any (fun e => decide (e.blockedUntil > t)) =
      decide ((l.entry k).blockedUntil > t) := by
  unfold AuthRateLimiter.entry
  cases l.lookup k with
  | none => exact (decide_eq_false (not_lt.mpr ht)).symm
  | some e => rfl

theorem blockedCount_eq_of_live {l l' : AuthRateLimiter} {t : ℤ} (ht : 0 ≤ t)
    (h : ∀ k, (l.entry k).live t = (l'.entry k).live t) : l.blockedCount t = l'.blockedCount t := by
  refine Table.countP_entries_eq (p := fun e : LimiterEntry => decide (e.blockedUntil > t)) fun k => ?_
  rw [any_lookup_eq l ht, any_lookup_eq l' ht]
  refine decide_eq_decide.mpr ?_
  rw [← LimiterEntry.blocked_live ht le_rfl, h k, LimiterEntry.blocked_live ht le_rfl]

/-- **Cleanup is invisible.** Two runs with the same calls to `record_failure` and
    `is_blocked`, and calls to `cleanup` anywhere between them, give the same
    answers, and from then on they count the same number of blocked addresses. -/
theorem cleanup_invisible (calls calls' : List LimiterCall) (h : TimedFrom 0 calls)
    (h' : TimedFrom 0 calls') (hsame : withoutCleanup calls = withoutCleanup calls') :
    throttle.outs ∅ calls = throttle.outs ∅ calls' ∧
      ∀ t, lastTime 0 calls ≤ t → lastTime 0 calls' ≤ t →
        (throttled calls).blockedCount t = (throttled calls').blockedCount t := by
  obtain ⟨houts, hlive⟩ := sameAnswers h
  obtain ⟨houts', hlive'⟩ := sameAnswers h'
  refine ⟨houts.trans (hsame ▸ houts'.symm), fun t ht ht' => ?_⟩
  refine blockedCount_eq_of_live ((h.le_lastTime List.mem_cons_self).trans ht) fun k => ?_
  calc ((throttled calls).entry k).live t
      = ((throttled (withoutCleanup calls)).entry k).live t := by
        rw [← LimiterEntry.live_live ht, hlive k, LimiterEntry.live_live ht]
    _ = ((throttled calls').entry k).live t := by
        rw [hsame, ← LimiterEntry.live_live ht', ← hlive' k, LimiterEntry.live_live ht']

/-- A failure, and a question after the window; a cleanup between them erases the entry. -/
theorem cleanup_invisible_erased :
    throttle.outs ∅ [.recordFailure default 1, .isBlocked default 70] =
      throttle.outs ∅ [.recordFailure default 1, .cleanup 62, .isBlocked default 70] ∧
    (throttled [.recordFailure default 1, .isBlocked default 70]).blockedCount 70 =
      (throttled [.recordFailure default 1, .cleanup 62, .isBlocked default 70]).blockedCount 70 ∧
    (throttled [.recordFailure default 1, .isBlocked default 70]).entries ≠
      (throttled [.recordFailure default 1, .cleanup 62, .isBlocked default 70]).entries := by
  obtain ⟨houts, hcount⟩ := cleanup_invisible
    [.recordFailure default 1, .isBlocked default 70]
    [.recordFailure default 1, .cleanup 62, .isBlocked default 70]
    (by decide) (by decide) (by decide)
  exact ⟨houts, hcount 70 (by decide) (by decide), by decide⟩

/-! ## Causes -/

/-- The addresses have the same IP; the ports are left aside. -/
def SameIp (a b : SockaddrStorage) : Prop :=
  (a.ssFamily = afInet6 ↔ b.ssFamily = afInet6) ∧
    if a.ssFamily = afInet6 then a.sin6Addr = b.sin6Addr else a.sinAddr = b.sinAddr

instance (a b : SockaddrStorage) : Decidable (SameIp a b) := inferInstanceAs (Decidable (_ ∧ _))

/-- The key is the IP. -/
theorem keyFor_eq_iff {a b : SockaddrStorage} : keyFor a = keyFor b ↔ SameIp a b := by
  unfold keyFor SameIp
  by_cases ha : a.ssFamily = afInet6 <;> by_cases hb : b.ssFamily = afInet6
  · simp [ha, hb, Block.ext_iff]
  · simp [ha, hb]
  · simp [ha, hb]
  · simp [ha, hb, Block.ext_iff]

/-- The failures recorded by the calls, oldest first. -/
def recorded (calls : List LimiterCall) : List (SockaddrStorage × ℤ) :=
  calls.filterMap fun
    | .recordFailure addr now => some (addr, now)
    | _ => none

/-- The failures recorded for a key. -/
def recordedFor (k : Bytes) (calls : List LimiterCall) : List (SockaddrStorage × ℤ) :=
  (recorded calls).filter fun f => decide (keyFor f.1 = k)

/-- The failures `fs` in `all`, with one at `T` at their end, are `AUTH_FAIL_THRESHOLD`
    and lie within `AUTH_FAIL_WINDOW` seconds. -/
structure Cause (all fs : List (SockaddrStorage × ℤ)) (a : SockaddrStorage) (T : ℤ) : Prop where
  sublist : (fs ++ [(a, T)]).Sublist all
  count : ((fs ++ [(a, T)]).length : ℤ) = authFailThreshold
  span : ∀ f ∈ fs, f.2 ≤ T ∧ T - f.2 ≤ authFailWindow

/-- What an entry says about the failures recorded for its key. -/
structure Witnessed (all : List (SockaddrStorage × ℤ)) (e : LimiterEntry) : Prop where
  counted : ∃ fs : List (SockaddrStorage × ℤ), fs.Sublist all ∧ (fs.length : ℤ) = e.failures ∧
    ∀ f ∈ fs, e.windowStart ≤ f.2
  below : e.failures < authFailThreshold
  blocked : e.blockedUntil = 0 ∨ ∃ fs a T, Cause all fs a T ∧ e.blockedUntil = T + authFailCooldown

theorem windowStart_window_le {e : LimiterEntry} {now : ℤ} (h : e.windowStart ≤ now) :
    (e.window now).windowStart ≤ now := by
  unfold LimiterEntry.window
  split_ifs
  · exact le_refl now
  · exact h

namespace Witnessed

variable {all : List (SockaddrStorage × ℤ)} {e : LimiterEntry}

theorem fresh (all : List (SockaddrStorage × ℤ)) : Witnessed all {} :=
  ⟨⟨[], List.nil_sublist _, rfl, fun _ hf => absurd hf List.not_mem_nil⟩, by decide, Or.inl rfl⟩

theorem window (h : Witnessed all e) (now : ℤ) : Witnessed all (e.window now) := by
  unfold LimiterEntry.window
  split_ifs
  · exact ⟨⟨[], List.nil_sublist _, rfl, fun _ hf => absurd hf List.not_mem_nil⟩, (fresh all).below,
      h.blocked⟩
  · exact h

theorem mono (h : Witnessed all e) {all' : List (SockaddrStorage × ℤ)} (hsub : all.Sublist all') :
    Witnessed all' e := by
  refine ⟨?_, h.below, h.blocked.imp_right ?_⟩
  · obtain ⟨fs, hfs, hlen, hstart⟩ := h.counted
    exact ⟨fs, hfs.trans hsub, hlen, hstart⟩
  · rintro ⟨fs, a, T, hcause, heq⟩
    exact ⟨fs, a, T, ⟨hcause.sublist.trans hsub, hcause.count, hcause.span⟩, heq⟩

/-- A failure more. -/
theorem record (h : Witnessed all e) {a : SockaddrStorage} {now : ℤ} (hnow : ∀ f ∈ all, f.2 ≤ now)
    (hstarted : e.windowStart ≤ now) :
    Witnessed (all ++ [(a, now)]) (e.record now) := by
  obtain ⟨fs, hfs, hlen, hstart⟩ := (h.window now).counted
  have hrecent : now - (e.window now).windowStart ≤ authFailWindow := by
    unfold LimiterEntry.window
    split_ifs with hexp
    · show now - now ≤ authFailWindow
      rw [sub_self]
      decide
    · exact not_lt.mp fun hlt => hexp (Or.inr hlt)
  have hsub : (fs ++ [(a, now)]).Sublist (all ++ [(a, now)]) := hfs.append (List.Sublist.refl _)
  have hlen' : ((fs ++ [(a, now)]).length : ℤ) = (e.window now).failures + 1 := by
    rw [List.length_append, List.length_singleton, Nat.cast_succ, hlen]
  by_cases htrips : e.Trips now
  · rw [LimiterEntry.record_of_trips htrips]
    have hbelow := (h.window now).below
    refine ⟨(fresh _).counted, (fresh all).below, Or.inr ⟨fs, a, now, ⟨hsub, ?_, fun f hf => ?_⟩, rfl⟩⟩
    · unfold LimiterEntry.Trips at htrips
      omega
    · have := hstart f hf
      exact ⟨hnow f (hfs.subset hf), by omega⟩
  · rw [LimiterEntry.record_of_not_trips htrips]
    refine ⟨⟨fs ++ [(a, now)], hsub, hlen', fun f hf => ?_⟩, not_le.mp htrips, ?_⟩
    · rcases List.mem_append.mp hf with hf | hf
      · exact hstart f hf
      · rw [List.mem_singleton.mp hf]
        exact windowStart_window_le hstarted
    · exact ((h.window now).mono (List.sublist_append_left _ _)).blocked

end Witnessed

theorem recordedFor_concat (k : Bytes) (calls : List LimiterCall) (addr : SockaddrStorage) (now : ℤ) :
    recordedFor k (calls ++ [.recordFailure addr now]) =
      recordedFor k calls ++ if keyFor addr = k then [(addr, now)] else [] := by
  rw [recordedFor, recorded, List.filterMap_append, List.filter_append]
  refine congrArg _ ?_
  show List.filter _ [(addr, now)] = _
  rw [List.filter_singleton, Bool.cond_decide]

theorem recordedFor_sublist_concat (k : Bytes) (calls : List LimiterCall) (c : LimiterCall) :
    (recordedFor k calls).Sublist (recordedFor k (calls ++ [c])) := by
  rw [recordedFor, recordedFor, recorded, recorded, List.filterMap_append, List.filter_append]
  exact List.sublist_append_left _ _

theorem le_lastTime_of_recorded {calls : List LimiterCall} {t₀ : ℤ} {k : Bytes}
    (h : TimedFrom t₀ calls) {f : SockaddrStorage × ℤ} (hf : f ∈ recordedFor k calls) :
    f.2 ≤ lastTime t₀ calls := by
  obtain ⟨c, hc, hcf⟩ := List.mem_filterMap.mp (List.mem_filter.mp hf).1
  cases c with
  | recordFailure addr now =>
    obtain rfl := Option.some.inj hcf
    exact h.le_lastTime (List.mem_cons_of_mem _ (List.mem_map_of_mem hc))
  | isBlocked addr now => cases hcf
  | cleanup now => cases hcf

theorem windowStart_record_le {e : LimiterEntry} {now : ℤ} (hnow : 0 ≤ now) (h : e.windowStart ≤ now) :
    (e.record now).windowStart ≤ now := by
  unfold LimiterEntry.record
  split_ifs
  · exact hnow
  · exact windowStart_window_le h

theorem windowStart_le_lastTime {calls : List LimiterCall} {t₀ : ℤ} (h₀ : 0 ≤ t₀) (k : Bytes)
    (h : TimedFrom t₀ calls) : ((throttled calls).entry k).windowStart ≤ lastTime t₀ calls := by
  refine entry_invariant (I := fun calls e => e.windowStart ≤ lastTime t₀ calls) h₀ ?_ ?_ ?_ h
  · intro calls addr now h hle _ he
    rw [lastTime_concat]
    exact windowStart_record_le ((h₀.trans (h.le_lastTime List.mem_cons_self)).trans hle) (he.trans hle)
  · intro calls c _ hle _ he
    rw [lastTime_concat]
    exact he.trans hle
  · intro calls now h hle _ _
    rw [lastTime_concat]
    exact (h₀.trans (h.le_lastTime List.mem_cons_self)).trans hle

theorem witnessed {calls : List LimiterCall} (k : Bytes) (h : TimedFrom 0 calls) :
    Witnessed (recordedFor k calls) ((throttled calls).entry k) := by
  refine entry_invariant (I := fun calls e => Witnessed (recordedFor k calls) e)
    (Witnessed.fresh _) ?_ ?_ ?_ h
  · intro calls addr now h hle hk he
    rw [recordedFor_concat, if_pos hk]
    exact he.record (fun f hf => (le_lastTime_of_recorded h hf).trans hle)
      ((windowStart_le_lastTime le_rfl k h).trans hle)
  · intro calls c _ _ _ he
    exact he.mono (recordedFor_sublist_concat k calls c)
  · intro calls now _ _ _ _
    exact Witnessed.fresh _

/-- A block that is in force has a cause. -/
theorem exists_cause {calls : List LimiterCall} {a : SockaddrStorage} {now : ℤ}
    (h : TimedFrom 0 (calls ++ [.isBlocked a now])) (hblocked : (throttled calls).isBlocked a now = true) :
    ∃ fs b T, Cause (recordedFor (keyFor a) calls) fs b T ∧ now < T + authFailCooldown := by
  obtain ⟨h, hle⟩ := timedFrom_concat.mp h
  have hnow : 0 ≤ now := (h.le_lastTime List.mem_cons_self).trans hle
  rw [AuthRateLimiter.isBlocked_eq hnow, decide_eq_true_eq] at hblocked
  rcases (witnessed (keyFor a) h).blocked with hzero | ⟨fs, b, T, hcause, huntil⟩
  · omega
  · exact ⟨fs, b, T, hcause, by omega⟩

/-- **Nobody is blocked without cause.** If `is_blocked` answers true for an address,
    `AUTH_FAIL_THRESHOLD` failures were recorded for addresses with its IP, within
    `AUTH_FAIL_WINDOW` seconds, the last of them less than `AUTH_FAIL_COOLDOWN`
    seconds ago. -/
theorem blocked_for_cause {calls : List LimiterCall} {a : SockaddrStorage} {now : ℤ}
    (h : TimedFrom 0 (calls ++ [.isBlocked a now])) (hblocked : (throttled calls).isBlocked a now = true) :
    ∃ fs b T, (fs ++ [(b, T)]).Sublist (recorded calls) ∧
      ((fs ++ [(b, T)]).length : ℤ) = authFailThreshold ∧ (∀ f ∈ fs ++ [(b, T)], SameIp f.1 a) ∧
      (∀ f ∈ fs, f.2 ≤ T ∧ T - f.2 ≤ authFailWindow) ∧ now < T + authFailCooldown := by
  obtain ⟨fs, b, T, hcause, huntil⟩ := exists_cause h hblocked
  refine ⟨fs, b, T, hcause.sublist.trans List.filter_sublist, hcause.count, fun f hf => ?_, hcause.span, huntil⟩
  have hkey := (List.mem_filter.mp (hcause.sublist.subset hf)).2
  exact keyFor_eq_iff.mp (of_decide_eq_true hkey)

/-- Failures of one address at the given times. -/
def failuresAt (times : List ℤ) : List LimiterCall := times.map (.recordFailure default)

theorem blocked_for_cause_five :
    (throttled (failuresAt [1, 2, 3, 4, 5])).isBlocked default 64 = true ∧
      ∃ fs b T, (fs ++ [(b, T)]).Sublist (recorded (failuresAt [1, 2, 3, 4, 5])) ∧
        ((fs ++ [(b, T)]).length : ℤ) = authFailThreshold ∧ 64 < T + authFailCooldown := by
  have hblocked : (throttled (failuresAt [1, 2, 3, 4, 5])).isBlocked default 64 = true := by decide
  obtain ⟨fs, b, T, hsub, hcount, _, _, hT⟩ := blocked_for_cause (by decide) hblocked
  exact ⟨hblocked, fs, b, T, hsub, hcount, hT⟩

/-! ## Blocks -/

/-- The times of the failures recorded for a key since it last reached the
    threshold, newest first. -/
def sinceTrip (k : Bytes) (calls : List LimiterCall) : List ℤ :=
  (throttle.hist ∅ calls).foldl (fun times e =>
    match e.input with
    | .recordFailure addr now =>
      if keyFor addr = k then if (e.pre.entry k).Trips now then [] else now :: times else times
    | _ => times) []

theorem sinceTrip_concat (k : Bytes) (calls : List LimiterCall) (c : LimiterCall) :
    sinceTrip k (calls ++ [c]) =
      match c with
      | .recordFailure addr now =>
        if keyFor addr = k then
          if ((throttled calls).entry k).Trips now then [] else now :: sinceTrip k calls
        else sinceTrip k calls
      | _ => sinceTrip k calls := by
  rw [sinceTrip, Machine.hist_concat, List.foldl_append]
  rfl

/-- What the entry under a key has of the failures `times` since the last trip;
    `τ` is the time of the last call. -/
structure Logged (times : List ℤ) (τ : ℤ) (e : LimiterEntry) : Prop where
  sorted : times.Pairwise (· ≥ ·)
  range : ∀ u ∈ times, 0 ≤ u ∧ u ≤ τ
  blocked : e.blockedUntil ≤ τ + authFailCooldown ∧ ∀ u ∈ times, e.blockedUntil ≤ u + authFailCooldown
  counted : e.windowStart ≠ 0 → e.failures = times.countP fun u => decide (e.windowStart ≤ u)
  /-- The last failures are in the window, unless it has been erased since. -/
  recent : ∀ u ∈ times, (e.windowStart ≠ 0 ∧ u ≤ e.windowStart + authFailWindow) ∨
    (e.windowStart = 0 ∧ u < τ)

namespace Logged

variable {times : List ℤ} {τ now : ℤ} {e : LimiterEntry}

theorem nil (hstart : e.windowStart = 0) (hblocked : e.blockedUntil ≤ τ + authFailCooldown) :
    Logged [] τ e :=
  ⟨List.Pairwise.nil, fun _ hu => absurd hu List.not_mem_nil,
    ⟨hblocked, fun _ hu => absurd hu List.not_mem_nil⟩, fun h => absurd hstart h,
    fun _ hu => absurd hu List.not_mem_nil⟩

theorem mono (h : Logged times τ e) (hle : τ ≤ now) : Logged times now e := by
  refine ⟨h.sorted, fun u hu => ⟨(h.range u hu).1, (h.range u hu).2.trans hle⟩,
    ⟨by have := h.blocked.1; omega, h.blocked.2⟩, h.counted, fun u hu => ?_⟩
  exact (h.recent u hu).imp_right fun ⟨hstart, hlt⟩ => ⟨hstart, hlt.trans_le hle⟩

/-- Failures are older than the end of a window that is over. -/
theorem lt_of_expired (h : Logged times τ e) (hle : τ ≤ now) (hexp : e.Expired now) {u : ℤ}
    (hu : u ∈ times) : u < now := by
  rcases h.recent u hu with ⟨hstart, hend⟩ | ⟨_, hlt⟩
  · have := hexp.resolve_left hstart
    omega
  · exact hlt.trans_le hle

theorem counted_window (h : Logged times τ e) (hle : τ ≤ now) :
    (e.window now).failures = times.countP fun u => decide ((e.window now).windowStart ≤ u) := by
  by_cases hexp : e.Expired now
  · rw [LimiterEntry.window_of_expired hexp]
    have hnone : (times.countP fun u => decide (now ≤ u)) = 0 := by
      refine List.countP_eq_zero.mpr fun u hu => ?_
      have := h.lt_of_expired hle hexp hu
      simpa using this
    exact (congrArg Nat.cast hnone).symm
  · rw [LimiterEntry.window_of_not_expired hexp]
    exact h.counted fun hstart => hexp (Or.inl hstart)

theorem erase (h : Logged times τ e) (hτ : 0 ≤ τ) (hle : τ ≤ now)
    (hkeep : ¬ AuthRateLimiter.keepEntry now e = true) : Logged times now {} := by
  rw [LimiterEntry.keepEntry_iff, not_or, not_not] at hkeep
  have hcool : (0 : ℤ) ≤ authFailCooldown := by decide
  refine ⟨h.sorted, fun u hu => ⟨(h.range u hu).1, (h.range u hu).2.trans hle⟩,
    ⟨?_, fun u hu => ?_⟩, fun hstart => absurd rfl hstart,
    fun u hu => Or.inr ⟨rfl, h.lt_of_expired hle hkeep.2 hu⟩⟩
  · show (0 : ℤ) ≤ now + authFailCooldown
    omega
  · have := (h.range u hu).1
    show (0 : ℤ) ≤ u + authFailCooldown
    omega

/-- A failure more, which does not reach the threshold. -/
theorem record (h : Logged times τ e) (hnow : 0 < now) (hle : τ ≤ now) (hstarted : e.windowStart ≤ now)
    (htrips : ¬ e.Trips now) : Logged (now :: times) now (e.record now) := by
  have hstart : (e.window now).windowStart ≠ 0 ∧ (e.window now).windowStart ≤ now ∧
      now ≤ (e.window now).windowStart + authFailWindow := by
    have hW : (0 : ℤ) ≤ authFailWindow := by decide
    by_cases hexp : e.Expired now
    · rw [LimiterEntry.window_of_expired hexp]
      exact ⟨hnow.ne', le_refl now, by show now ≤ now + authFailWindow; omega⟩
    · rw [LimiterEntry.window_of_not_expired hexp]
      unfold LimiterEntry.Expired at hexp
      omega
  have hcount := h.counted_window hle
  rw [LimiterEntry.record_of_not_trips htrips]
  refine ⟨List.pairwise_cons.mpr ⟨fun u hu => (h.range u hu).2.trans hle, h.sorted⟩, ?_, ?_, ?_, ?_⟩
  · intro u hu
    rcases List.mem_cons.mp hu with rfl | hu
    · exact ⟨hnow.le, le_refl u⟩
    · exact ⟨(h.range u hu).1, (h.range u hu).2.trans hle⟩
  · show (e.window now).blockedUntil ≤ _ ∧ ∀ u ∈ _, (e.window now).blockedUntil ≤ _
    rw [LimiterEntry.window_blockedUntil]
    obtain ⟨hτ, hall⟩ := h.blocked
    refine ⟨by omega, fun u hu => ?_⟩
    rcases List.mem_cons.mp hu with rfl | hu
    · omega
    · exact hall u hu
  · intro _
    show (e.window now).failures + 1 =
      ((now :: times).countP fun u => decide ((e.window now).windowStart ≤ u) : ℕ)
    have hcons : ((now :: times).countP fun u => decide ((e.window now).windowStart ≤ u)) =
        (times.countP fun u => decide ((e.window now).windowStart ≤ u)) + 1 :=
      List.countP_cons_of_pos (decide_eq_true hstart.2.1)
    rw [hcons, hcount, Nat.cast_succ]
  · intro u hu
    refine Or.inl ⟨hstart.1, ?_⟩
    show u ≤ (e.window now).windowStart + authFailWindow
    rcases List.mem_cons.mp hu with rfl | hu
    · exact hstart.2.2
    · have := (h.range u hu).2
      omega

end Logged

theorem logged {calls : List LimiterCall} (k : Bytes) (h : TimedFrom 1 calls) :
    Logged (sinceTrip k calls) (lastTime 1 calls) ((throttled calls).entry k) := by
  refine entry_invariant (I := fun calls e => Logged (sinceTrip k calls) (lastTime 1 calls) e)
    (Logged.nil rfl (by decide)) ?_ ?_ ?_ h
  · intro calls addr now h hle hk he
    have hnow : 1 ≤ now := (h.le_lastTime List.mem_cons_self).trans hle
    rw [lastTime_concat, sinceTrip_concat]
    dsimp only
    rw [if_pos hk]
    split_ifs with htrips
    · rw [LimiterEntry.record_of_trips htrips]
      exact Logged.nil rfl (le_refl _)
    · exact he.record (by omega) hle ((windowStart_le_lastTime (by decide) k h).trans hle) htrips
  · intro calls c _ hle hc he
    have hsame : sinceTrip k (calls ++ [c]) = sinceTrip k calls := by
      rw [sinceTrip_concat]
      cases c with
      | recordFailure addr now => exact if_neg (hc addr now rfl)
      | isBlocked addr now => rfl
      | cleanup now => rfl
    rw [lastTime_concat, hsame]
    exact he.mono hle
  · intro calls now h hle hkeep he
    rw [lastTime_concat, sinceTrip_concat]
    exact he.erase (by have := h.le_lastTime List.mem_cons_self; omega) hle hkeep

/-- In a list with the largest elements first, more than `n` are `a` or larger iff
    the one at `n` is. -/
theorem lt_countP_iff {times : List ℤ} (h : times.Pairwise (· ≥ ·)) (a : ℤ) (n : ℕ) :
    (n < times.countP fun u => decide (a ≤ u)) ↔ ∃ u, times[n]? = some u ∧ a ≤ u := by
  induction times generalizing n with
  | nil => simp
  | cons v times ih =>
    obtain ⟨hv, htail⟩ := List.pairwise_cons.mp h
    by_cases hle : a ≤ v
    · rw [List.countP_cons_of_pos (p := fun u => decide (a ≤ u)) (decide_eq_true hle)]
      cases n with
      | zero => simpa using hle
      | succ n =>
        rw [List.getElem?_cons_succ, ← ih htail n]
        omega
    · -- then no later element is
      have hzero : (times.countP fun u => decide (a ≤ u)) = 0 := by
        refine List.countP_eq_zero.mpr fun u hu => ?_
        have := hv u hu
        simp only [decide_eq_true_eq]
        omega
      rw [List.countP_cons_of_neg (by simpa using hle), hzero]
      constructor
      · intro hn
        omega
      · rintro ⟨u, hu, hau⟩
        have := List.mem_of_getElem? hu
        rcases List.mem_cons.mp this with rfl | hmem
        · exact absurd hau hle
        · have := hv u hmem
          omega

/-- The failures of the last `AUTH_FAIL_WINDOW` seconds, one at `t` included. -/
theorem threshold_le_iff {times : List ℤ} {t : ℤ} (hsorted : times.Pairwise (· ≥ ·))
    (hle : ∀ u ∈ times, u ≤ t) :
    authFailThreshold ≤ (((t :: times).countP fun u =>
        decide (t - authFailWindow ≤ u ∧ u ≤ t) : ℕ) : ℤ) ↔
      ∃ u, times[3]? = some u ∧ t - u ≤ authFailWindow := by
  have hW : (0 : ℤ) ≤ authFailWindow := by decide
  have hfive : authFailThreshold = 5 := rfl
  have hcongr : (times.countP fun u => decide (t - authFailWindow ≤ u ∧ u ≤ t)) =
      times.countP fun u => decide (t - authFailWindow ≤ u) := by
    refine List.countP_congr fun u hu => ?_
    have := hle u hu
    simp only [decide_eq_true_eq]
    omega
  rw [List.countP_cons_of_pos (by simpa using hW), hcongr, hfive]
  have hiff := lt_countP_iff hsorted (t - authFailWindow) 3
  constructor
  · intro h
    obtain ⟨u, hu, hau⟩ := hiff.mp (by omega)
    exact ⟨u, hu, by omega⟩
  · rintro ⟨u, hu, hau⟩
    have := hiff.mpr ⟨u, hu, by omega⟩
    omega

/-- **When five failures within 60 s block.** Right after a failure of an IP at `t`,
    `AUTH_FAIL_THRESHOLD` failures within `AUTH_FAIL_WINDOW` seconds, counted since
    the IP was last blocked, block it for `AUTH_FAIL_COOLDOWN` seconds iff the
    fourth failure before this one is older than that or in the window in which
    the limiter counts. -/
theorem five_failures_block_iff (calls : List LimiterCall) {addr : SockaddrStorage} {t : ℤ}
    (h : TimedFrom 1 (calls ++ [.recordFailure addr t])) :
    (authFailThreshold ≤ (((t :: sinceTrip (keyFor addr) calls).countP fun u =>
        decide (t - authFailWindow ≤ u ∧ u ≤ t) : ℕ) : ℤ) →
      ∀ t', t ≤ t' → t' < t + authFailCooldown →
        (throttled (calls ++ [.recordFailure addr t])).isBlocked addr t' = true) ↔
    ∀ u, (sinceTrip (keyFor addr) calls)[3]? = some u → t - u ≤ authFailWindow →
      (((throttled calls).entry (keyFor addr)).window t).windowStart ≤ u := by
  obtain ⟨h, hle⟩ := timedFrom_concat.mp h
  replace hle : lastTime 1 calls ≤ t := hle
  have ht : 1 ≤ t := (h.le_lastTime List.mem_cons_self).trans hle
  have hlog := logged (keyFor addr) h
  have hstarted := (windowStart_le_lastTime (by decide) (keyFor addr) h).trans hle
  have hentry : (throttled (calls ++ [.recordFailure addr t])).entry (keyFor addr) =
      ((throttled calls).entry (keyFor addr)).record t := by
    rw [entry_throttled_concat]
    exact if_pos rfl
  have hcount := hlog.counted_window hle
  have hfour := lt_countP_iff hlog.sorted
    (((throttled calls).entry (keyFor addr)).window t).windowStart 3
  rw [threshold_le_iff hlog.sorted fun u hu => (hlog.range u hu).2.trans hle]
  generalize sinceTrip (keyFor addr) calls = times at *
  generalize (throttled calls).entry (keyFor addr) = e at *
  have htrips : e.Trips t ↔ 3 < times.countP fun u => decide ((e.window t).windowStart ≤ u) := by
    rw [LimiterEntry.Trips, hcount, show authFailThreshold = 5 from rfl]
    omega
  rw [hfour] at htrips
  constructor
  · intro hblocks u hu hW
    by_contra hlt
    have hnot : ¬ e.Trips t := by
      rw [htrips]
      rintro ⟨v, hv, hstart⟩
      rw [hu] at hv
      obtain rfl := Option.some.inj hv
      exact hlt hstart
    -- the block of an earlier trip ends too early
    have hcool : (1 : ℤ) ≤ authFailCooldown := by decide
    have hblocked := hblocks ⟨u, hu, hW⟩ (t + authFailCooldown - 1) (by omega) (by omega)
    rw [AuthRateLimiter.isBlocked_eq (by omega), hentry, decide_eq_true_eq,
      LimiterEntry.record_of_not_trips hnot] at hblocked
    replace hblocked : (e.window t).blockedUntil > t + authFailCooldown - 1 := hblocked
    rw [LimiterEntry.window_blockedUntil] at hblocked
    have huntil := hlog.blocked.2 u (List.mem_of_getElem? hu)
    have hwindow := windowStart_window_le hstarted
    omega
  · rintro hcond ⟨u, hu, hW⟩ t' hle' hlt'
    have htrip := htrips.mpr ⟨u, hu, hcond u hu hW⟩
    rw [AuthRateLimiter.isBlocked_eq (by omega), hentry, LimiterEntry.record_of_trips htrip]
    exact decide_eq_true hlt'

/-- Five failures from 1 to 5 block the address until 64. -/
theorem five_failures_block_five :
    (throttled (failuresAt [1, 2, 3, 4] ++ [.recordFailure default 5])).isBlocked default 5 = true ∧
      (throttled (failuresAt [1, 2, 3, 4] ++ [.recordFailure default 5])).isBlocked default 64 = true := by
  have hblocked : ∀ t', 5 ≤ t' → t' < 65 →
      (throttled (failuresAt [1, 2, 3, 4] ++ [.recordFailure default 5])).isBlocked default t' = true := by
    refine (five_failures_block_iff (failuresAt [1, 2, 3, 4]) (by decide)).mpr ?_ (by decide)
    intro u hu _
    have hfirst : (sinceTrip (keyFor default) (failuresAt [1, 2, 3, 4]))[3]? = some 1 := by decide
    rw [hfirst] at hu
    rw [← Option.some.inj hu]
    decide
  exact ⟨hblocked 5 (by decide) (by decide), hblocked 64 (by decide) (by decide)⟩

/-- Five failures of one address within 13 seconds: the window of the first three
    began with a failure 61 seconds before the fourth. -/
theorem failures_across_windows :
    TimedFrom 1 (failuresAt [1, 50, 51, 52, 62, 63]) ∧
      ((63 :: sinceTrip (keyFor default) (failuresAt [1, 50, 51, 52, 62])).countP fun u =>
        decide (63 - authFailWindow ≤ u ∧ u ≤ 63)) = 5 ∧
      (throttled (failuresAt [1, 50, 51, 52, 62, 63])).isBlocked default 63 = false := by
  refine ⟨by decide, by decide, by decide⟩

end Srtla.Receiver
