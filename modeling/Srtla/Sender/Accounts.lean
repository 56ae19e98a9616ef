import Srtla.Sender.Calls

/-!
# Links and their accounts

What the log of a link is to hold is said by an account of the link, a value that
is kept beside the state of the sender and follows the calls of a run. A relation
between logs and accounts that every call preserves holds in every run; most calls
do not touch a log, and the others change one log or all of them in the same way.

Results:
* `Booked.call`: if the accounts follow a call, the relation is preserved.
* `KeptBy.reachable`, `KeptBy.between_calls`: a relation that every call keeps holds
  in every run, between the calls of a step too.
* `booked_start`: it holds at the start if it holds of new links.
-/

namespace Srtla.Sender

open Lib

variable {α : Type*} {P : Conn → α → Prop} {conns : List Conn} {accounts accounts' : ℕ → α}
  {f : Conn → Conn} {packet : ℤ}

/-- Every link is related to its account. -/
def Booked (P : Conn → α → Prop) (conns : List Conn) (accounts : ℕ → α) : Prop :=
  ∀ c ∈ conns, P c (accounts c.ref)

/-- The relation depends on nothing but the log of the link. -/
def ReadsLog (P : Conn → α → Prop) : Prop :=
  ∀ ⦃c c' : Conn⦄ ⦃a : α⦄, c'.pktIdx = c.pktIdx → c'.pktLog = c.pktLog → P c a → P c' a

/-- The accounts follow the settlement of a packet: the account of the link that is
    charged for it is related to its log without the entry. -/
def Settles (P : Conn → α → Prop) (packet : ℤ) (conns : List Conn) (accounts accounts' : ℕ → α) : Prop :=
  match charged packet conns with
  | some c => ∃ a, accounts' = Function.update accounts c.ref a ∧
      ∀ i, c.findPkt packet = some i → P c (accounts c.ref) → P (c.clearSlot i) a
  | none => accounts' = accounts

/-- The accounts follow a call: for a call that writes to logs, the new accounts
    are related to the new logs; for any other they have not changed. -/
def LinkCall.Enters (P : Conn → α → Prop) (conns : List Conn) (accounts accounts' : ℕ → α) :
    LinkCall → Prop
  | .link ref (.regPkt packet) => ∃ a, accounts' = Function.update accounts ref a ∧
      ∀ c, P c (accounts ref) → P (c.regPkt packet) a
  | .link ref .reset => ∃ a, accounts' = Function.update accounts ref a ∧ ∀ c : Conn, P c.wipe a
  | .registerSrtAck ack => ∀ c ref, P c (accounts ref) → P (c.registerSrtAck ack) (accounts' ref)
  | .registerNak packet | .registerSrtlaAck packet => Settles P packet conns accounts accounts'
  | .create ref src => P (Conn.create ref src) (accounts' ref) ∧
      ∀ c ∈ conns, accounts' c.ref = accounts c.ref
  | _ => accounts' = accounts

theorem settles_charged {g : α → α}
    (hg : ∀ c i a, c.findPkt packet = some i → P c a → P (c.clearSlot i) (g a)) :
    Settles P packet conns accounts (match charged packet conns with
      | some c => Function.update accounts c.ref (g (accounts c.ref))
      | none => accounts) := by
  unfold Settles
  cases charged packet conns with
  | none => rfl
  | some c => exact ⟨_, rfl, fun i hfind hc => hg c i _ hfind hc⟩

/-! ## One call -/

/-- The links may change in ways that do not concern their logs. -/
theorem Booked.of_sameLog (h : Booked P conns accounts) (hP : ReadsLog P)
    (hf : ∀ c, (f c).ref = c.ref ∧ (f c).pktIdx = c.pktIdx ∧ (f c).pktLog = c.pktLog) :
    Booked P (conns.map f) accounts := by
  intro c hc
  obtain ⟨d, hd, rfl⟩ := List.mem_map.mp hc
  obtain ⟨href, hidx, hlog⟩ := hf d
  rw [href]
  exact hP hidx hlog (h d hd)

/-- One link and its account change. -/
theorem Booked.modify {ref : ℕ} {a : α} (h : Booked P conns accounts) (href : ∀ c, (f c).ref = c.ref)
    (hf : ∀ c ∈ conns, c.ref = ref → P c (accounts ref) → P (f c) a) :
    Booked P (Keyed.modify Conn.ref ref f conns) (Function.update accounts ref a) := by
  intro c hc
  obtain ⟨d, hd, ⟨hk, rfl⟩ | ⟨hk, rfl⟩⟩ := Keyed.mem_modify hc
  · rw [href d, hk, Function.update_self]
    exact hf d hd hk (hk ▸ h d hd)
  · rw [Function.update_of_ne hk]
    exact h c hd

/-- The link that is charged loses an entry. -/
theorem Booked.charge (h : Booked P conns accounts) (hP : ReadsLog P)
    (hnodup : (conns.map Conn.ref).Nodup) (href : ∀ c, (f c).ref = c.ref)
    (hf : ∀ c i, c.findPkt packet = some i →
      (f c).pktIdx = c.pktIdx ∧ (f c).pktLog = (c.clearSlot i).pktLog)
    (hsettles : Settles P packet conns accounts accounts') :
    Booked P (charge packet f conns) accounts' := by
  unfold Settles at hsettles
  unfold Sender.charge
  cases hc : charged packet conns with
  | none =>
    rw [hc] at hsettles
    exact hsettles ▸ h
  | some c =>
    rw [hc] at hsettles
    obtain ⟨a, rfl, hclear⟩ := hsettles
    refine h.modify href fun d hd hk hbooked => ?_
    obtain rfl := Keyed.eq_of_key_eq hnodup hd (charged_mem hc) hk
    obtain ⟨i, hfind⟩ := charged_findPkt hc
    obtain ⟨hidx, hlog⟩ := hf d i hfind
    exact hP (c := d.clearSlot i) hidx hlog (hclear i hfind hbooked)

theorem Conn.nak_frame (packet : ℤ) (c : Conn) : (c.nak packet).ref = c.ref := by
  unfold Conn.nak
  split <;> rfl

theorem Conn.ack_frame (packet : ℤ) (c : Conn) : (c.ack packet).ref = c.ref := by
  unfold Conn.ack
  split
  · exact (c.sameLink_ackAt _).ref
  · rfl

theorem Conn.grow_frame (c : Conn) :
    c.grow.ref = c.ref ∧ c.grow.pktIdx = c.pktIdx ∧ c.grow.pktLog = c.pktLog ∧
      c.grow.inFlightPkts = c.inFlightPkts := by
  unfold Conn.grow
  split_ifs <;> exact ⟨rfl, rfl, rfl, rfl⟩

theorem openSocket_log (c : Conn) (env : OpenEnv) :
    (openSocket [] c env).2.2.pktIdx = c.pktIdx ∧ (openSocket [] c env).2.2.pktLog = c.pktLog := by
  unfold openSocket
  dsimp only
  split_ifs <;> exact ⟨rfl, rfl⟩

theorem Booked.change (h : Booked P conns accounts) (hP : ReadsLog P) {ref : ℕ} {change : LinkChange}
    (henters : LinkCall.Enters P conns accounts accounts' (.link ref change)) :
    Booked P (LinkCall.apply conns (.link ref change)) accounts' := by
  have hsame : (∀ c : Conn, (change.apply c).pktIdx = c.pktIdx ∧ (change.apply c).pktLog = c.pktLog) →
      Booked P (Keyed.modify Conn.ref ref change.apply conns) accounts := by
    intro hlog
    refine h.of_sameLog hP fun c => ?_
    split_ifs
    · exact ⟨change.apply_ref c, hlog c⟩
    · exact ⟨rfl, rfl, rfl⟩
  cases change with
  | regPkt packet =>
    obtain ⟨a, rfl, hreg⟩ := henters
    exact h.modify (fun c => rfl) fun c _ _ hbooked => hreg c hbooked
  | reset =>
    obtain ⟨a, rfl, hwipe⟩ := henters
    exact h.modify (fun c => rfl) fun c _ _ _ => hwipe c
  | openSocket env =>
    obtain rfl : accounts' = accounts := henters
    exact hsame fun c => openSocket_log c env
  | selected | sendFailed | heard | keep =>
    obtain rfl : accounts' = accounts := henters
    exact hsame fun c => ⟨rfl, rfl⟩

/-- **A call keeps every link related to its account** if the accounts follow it. -/
theorem Booked.call (h : Booked P conns accounts) (hP : ReadsLog P) (hnodup : (conns.map Conn.ref).Nodup)
    {k : LinkCall} (henters : k.Enters P conns accounts accounts') :
    Booked P (k.apply conns) accounts' := by
  cases k with
  | link ref change => exact h.change hP henters
  | registerSrtAck ack =>
    intro c hc
    obtain ⟨d, hd, rfl⟩ := List.mem_map.mp hc
    rw [(d.sameLink_registerSrtAck ack).ref]
    exact henters d d.ref (h d hd)
  | registerNak packet =>
    show Booked P (registerNak packet conns) accounts'
    rw [registerNak_eq hnodup]
    refine h.charge hP hnodup (Conn.nak_frame packet) (fun c i hfind => ?_) henters
    unfold Conn.nak
    rw [hfind]
    exact ⟨rfl, rfl⟩
  | registerSrtlaAck ack =>
    show Booked P (registerSrtlaAck ack conns) accounts'
    rw [registerSrtlaAck_eq hnodup]
    refine (h.charge hP hnodup (Conn.ack_frame ack) (fun c i hfind => ?_) henters).of_sameLog hP
      fun c => ⟨c.grow_frame.1, c.grow_frame.2.1, c.grow_frame.2.2.1⟩
    unfold Conn.ack
    rw [hfind]
    exact ⟨(c.ackAt_frame i).2.1, (c.ackAt_frame i).1⟩
  | mark =>
    obtain rfl : accounts' = accounts := henters
    exact h.of_sameLog hP fun c => ⟨rfl, rfl, rfl⟩
  | create ref src =>
    intro c hc
    rcases List.mem_cons.mp hc with rfl | hc
    · exact henters.1
    · rw [henters.2 c hc]
      exact h c hc
  | sweep =>
    obtain rfl : accounts' = accounts := henters
    exact fun c hc => h c (List.mem_of_mem_filter hc)

/-! ## Runs with accounts -/

/-- Links together with their accounts. -/
structure Books (α : Type*) where
  conns : List Conn
  accounts : ℕ → α

/-- How the accounts follow a call. -/
abbrev Entry (α : Type*) := List Conn → (ℕ → α) → LinkCall → ℕ → α

variable {enter : Entry α} {b : Books α}

def Books.call (enter : Entry α) (b : Books α) (k : LinkCall) : Books α :=
  ⟨k.apply b.conns, enter b.conns b.accounts k⟩

def Books.calls (enter : Entry α) (b : Books α) (ks : List LinkCall) : Books α :=
  ks.foldl (Books.call enter) b

theorem Books.calls_conns (b : Books α) (ks : List LinkCall) :
    (b.calls enter ks).conns = applyCalls ks b.conns := by
  induction ks generalizing b with
  | nil => rfl
  | cons k ks ih => exact ih (b.call enter k)

/-- The call registers no negative number. -/
def LinkCall.Numbered : LinkCall → Prop
  | .link _ (.regPkt packet) => 0 ≤ packet
  | _ => True

/-- `handle_srt_data` registers only numbers of data packets. -/
theorem numbered_dataCalls (s : State) (env : SrtDataEnv) : ∀ k ∈ dataCalls s env, k.Numbered := by
  intro k hk
  unfold dataCalls at hk
  split at hk
  · cases hk
  · rcases List.mem_cons.mp hk with rfl | hk
    · trivial
    · split_ifs at hk with _ hsn
      · rw [List.mem_singleton.mp hk]
        exact hsn
      · cases hk
      · rw [List.mem_singleton.mp hk]
        trivial

theorem numbered_calls (s : State) (op : Op) : ∀ k ∈ s.calls op, k.Numbered := by
  intro k hk
  have hmade := made_of_mem_calls hk
  cases hmade with
  | data env ref change => exact numbered_dataCalls s env _ hk
  | heard | mark | sweep | openSocket | reset => trivial
  | frame _ _ _ hmem =>
    obtain ⟨p, rfl | rfl | rfl⟩ := frameCalls_cases hmem <;> trivial
  | setup hmem =>
    obtain ⟨ref, src, rfl⟩ | ⟨ref, rfl⟩ := setupCalls_cases hmem <;> trivial

/-- The relation is kept by every call of a run: it registers no negative number, and
    the links that it adds are new objects. -/
def KeptBy (P : Conn → α → Prop) (enter : Entry α) : Prop :=
  ∀ (b : Books α) (k : LinkCall), (b.conns.map Conn.ref).Nodup → k.Numbered →
    (∀ ref src, k = .create ref src → ref ∉ b.conns.map Conn.ref) → Booked P b.conns b.accounts →
    Booked P (b.call enter k).conns (b.call enter k).accounts

theorem KeptBy.calls (hP : KeptBy P enter) (h : Booked P b.conns b.accounts)
    (hnodup : (b.conns.map Conn.ref).Nodup) {ks : List LinkCall} (hks : ∀ k ∈ ks, k.Numbered)
    (hfresh : Fresh ks b.conns) :
    Booked P (b.calls enter ks).conns (b.calls enter ks).accounts := by
  induction ks generalizing b with
  | nil => exact h
  | cons k ks ih =>
    exact ih (hP b k hnodup (hks k List.mem_cons_self) hfresh.1 h) (LinkCall.nodup_apply hnodup hfresh.1)
      (fun k' hk' => hks k' (List.mem_cons_of_mem k hk')) hfresh.2

/-- A sender and the accounts of its links. -/
structure Following (α : Type*) where
  state : State
  accounts : ℕ → α

def Following.books (a : Following α) : Books α := ⟨a.state.conns, a.accounts⟩

/-- A run of the sender with accounts, which start as `a₀`. -/
def followed (enter : Entry α) (a₀ : ℕ → α) (s₀ : State) : Lts (Following α) Op where
  init := ⟨s₀, a₀⟩
  step a op a' := ∃ effects, step a.state op = some (a'.state, effects) ∧
    a'.accounts = (a.books.calls enter (a.state.calls op)).accounts

variable {a₀ : ℕ → α} {cfg : Config} {s₀ : State} {a : Following α}

/-- `main` only adds links and opens their sockets before its loop. -/
theorem booked_start (hP : ReadsLog P) {a : α} (hcreate : ∀ ref src, P (Conn.create ref src) a)
    (h₀ : start cfg = some s₀) : Booked P s₀.conns fun _ => a := by
  have hcalls : ∀ k ∈ startCalls cfg, ∀ conns, k.Preserves (fun c => P c a) conns := by
    intro k hk conns
    rcases List.mem_append.mp hk with hk | hk
    · rcases setupCalls_cases hk with ⟨ref, src, rfl⟩ | ⟨ref, rfl⟩
      · exact hcreate ref src
      · exact fun c _ _ hc => hP (c := c) rfl rfl hc
    · obtain ⟨d, _, rfl⟩ := List.mem_map.mp hk
      exact fun c _ _ hc => hP (openSocket_log c _).1 (openSocket_log c _).2 hc
  have hnil : (([] : List Conn).map Conn.ref).Nodup := List.nodup_nil
  show ∀ c ∈ s₀.conns, P c a
  rw [(start_calls h₀).1]
  exact (applyCalls_invariant (I := fun conns => ∀ c ∈ conns, P c a)
    (G := fun k => ∀ conns, k.Preserves (fun c => P c a) conns)
    (fun conns k hnodup hk h => (hk conns).forall_apply hnodup h) hnil (fresh_startCalls cfg)
    hcalls fun c hc => absurd hc List.not_mem_nil).1

/-- A step of the sender, and what it enters. -/
theorem followed_step {op : Op} {r : State × List Effect} (h : (followed enter a₀ s₀).Reachable a)
    (hstep : step a.state op = some r) :
    (followed enter a₀ s₀).Reachable ⟨r.1, (a.books.calls enter (a.state.calls op)).accounts⟩ :=
  .step h trivial ⟨r.2, hstep, rfl⟩

/-- The confirmation of the only link. -/
theorem followed_reg3 (enter : Entry α) (a₀ : ℕ → α) : ∃ s₀ a, start oneLink = some s₀ ∧
    (followed enter a₀ s₀).Reachable a ∧ a.state.Alone { oneLinkConn with lastRcvd := 100 } ∧
    a.accounts = (Books.calls enter ⟨[oneLinkConn], a₀⟩ [.link 0 (.heard 100)]).accounts := by
  obtain ⟨s₀, h₀, hconns, hexited⟩ := start_oneLink
  obtain ⟨r, hstep, halone⟩ := step_reg3 (start_calls h₀).2 hconns hexited
  refine ⟨s₀, _, h₀, followed_step .init hstep, halone, ?_⟩
  show (Books.calls enter ⟨s₀.conns, a₀⟩ (s₀.calls reg3)).accounts = _
  rw [calls_reg3, hconns]

/-- A data packet on the only link. -/
theorem followed_data {c : Conn} (h : (followed enter a₀ s₀).Reachable a) (halone : a.state.Alone c) {n : ℕ}
    (hn : n < 2 ^ 31) : ∃ a', (followed enter a₀ s₀).Reachable a' ∧
      a'.state.Alone (Conn.regPkt { c with lastSent := 100 } n) ∧
      a'.accounts = (a.books.calls enter [.link 0 (.selected 100), .link 0 (.regPkt n)]).accounts := by
  obtain ⟨r, hstep, halone'⟩ := halone.step_data hn
  refine ⟨_, followed_step h hstep, halone', ?_⟩
  rw [halone.calls_data hn]

/-- Every run of the sender can be followed. -/
theorem exists_followed {s : State} (h : (sender s₀).Reachable s) :
    ∃ accounts, (followed enter a₀ s₀).Reachable ⟨s, accounts⟩ := by
  induction h with
  | init => exact ⟨a₀, .init⟩
  | step _ _ hstep ih =>
    obtain ⟨accounts, hreach⟩ := ih
    obtain ⟨effects, hstep⟩ := hstep
    exact ⟨_, .step hreach trivial ⟨effects, hstep, rfl⟩⟩

/-- **What every call keeps holds of every link and its account in every run.** -/
theorem KeptBy.reachable (hP : KeptBy P enter) (h₀ : start cfg = some s₀) (hinit : Booked P s₀.conns a₀)
    (h : (followed enter a₀ s₀).Reachable a) : a.state.Distinct ∧ Booked P a.state.conns a.accounts := by
  refine Lts.reachableIf_invariant
    (I := fun a : Following α => a.state.Distinct ∧ Booked P a.state.conns a.accounts)
    ⟨(start_calls h₀).2, hinit⟩ ?_ h
  rintro a op a' ⟨hdistinct, hbooked⟩ _ ⟨effects, hstep, haccounts⟩
  refine ⟨hdistinct.step hstep, ?_⟩
  have hconns : a'.state.conns = (a.books.calls enter (a.state.calls op)).conns := by
    rw [Books.calls_conns]
    exact step_calls hdistinct hstep
  rw [hconns, haccounts]
  exact hP.calls (b := a.books) hbooked hdistinct.refs (numbered_calls a.state op)
    (fresh_calls hdistinct op)

theorem nodup_between_calls (h : a.state.Distinct) {op : Op} {ks ks' : List LinkCall}
    (hcalls : a.state.calls op = ks ++ ks') : ((a.books.calls enter ks).conns.map Conn.ref).Nodup := by
  have hfresh := fresh_calls h op
  rw [hcalls, fresh_append] at hfresh
  rw [Books.calls_conns]
  exact (applyCalls_invariant (I := fun _ => True) (G := fun _ => True) (fun _ _ _ _ _ => trivial) h.refs
    hfresh.1 (fun _ _ => trivial) trivial).2

/-- The relation holds also between the calls of a step. -/
theorem KeptBy.between_calls (hP : KeptBy P enter) (h₀ : start cfg = some s₀)
    (hinit : Booked P s₀.conns a₀) (h : (followed enter a₀ s₀).Reachable a) {op : Op}
    {ks ks' : List LinkCall} (hcalls : a.state.calls op = ks ++ ks') :
    Booked P (a.books.calls enter ks).conns (a.books.calls enter ks).accounts := by
  obtain ⟨hdistinct, hbooked⟩ := hP.reachable h₀ hinit h
  have hfresh := fresh_calls hdistinct op
  have hnumbered := numbered_calls a.state op
  rw [hcalls] at hfresh hnumbered
  exact hP.calls (b := a.books) hbooked hdistinct.refs
    (fun k hk => hnumbered k (List.mem_append_left ks' hk)) (fresh_append.mp hfresh).1

end Srtla.Sender
