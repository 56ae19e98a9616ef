import Srtla.Sender.Probes
import Srtla.System.Schedule

/-!
# Links come into service

Registration survives loss: the sender repeats it at every housekeeping, and the
receiver answers a repeated request as it did the first. From every state of the
system, whatever was lost, repeated or delayed before, one housekeeping and the
delivery of what it causes bring the links into service.

Results:
* `Joining.all`: links of a sender whose REG2s are in flight join their group, with
  two deliveries for each.
* `silent_links_rejoin`: the receiver knows the sender's group. The links that have
  timed out are in service again after two deliveries each.
* `links_register`: the receiver does not know the sender's id. A sender without a
  link in service obtains a new group with four deliveries more, and all its links
  are in it.
-/

namespace Srtla.System

open Lib Receiver

/-! ## The system as it is reached -/

variable {ι : Type*} [DecidableEq ι] {D : Deployment ι} {N : Net ι}

/-- The invariants of both programs hold in the system. -/
theorem reachable_invariants (h : (network D).Reachable N) :
    Inv N.receiver ∧ ∀ i, (N.senders i).Distinct := by
  refine Lts.reachableIf_invariant
    (I := fun N : Net ι => Inv N.receiver ∧ ∀ i, (N.senders i).Distinct)
    ⟨inv_init, fun i => (Sender.start_calls (D.started i)).2⟩ ?_ h
  rintro N a N' ⟨hinv, hdistinct⟩ _ ⟨he, hnext⟩
  rcases next_cases he hnext with ⟨op, _, rfl⟩ | ⟨i, op, r, _, hstep, rfl⟩
  · exact ⟨(step_regStep hinv op).inv hinv, hdistinct⟩
  · refine ⟨hinv, fun j => ?_⟩
    show (Function.update N.senders i r.1 j).Distinct
    by_cases hj : j = i
    · rw [hj, Function.update_self]
      exact (hdistinct i).step hstep
    · rw [Function.update_of_ne hj]
      exact hdistinct j

/-- The sender does something on its own. -/
theorem step_own {i : ι} {op : Sender.Op} {r : Sender.State × List Sender.Effect}
    (hlocal : op.Local (D.links i)) (h : Sender.step (N.senders i) op = some r) :
    (network D).step N (.sender i op) (N.afterSender i r) := by
  refine ⟨hlocal, ?_⟩
  show (Sender.step _ _).map _ = _
  rw [h]
  rfl

/-- A datagram arrives at the link that has its address. -/
theorem step_deliver {i : ι} {c : Sender.Conn} {buf : Bytes} {ts : ℤ} {ret : ℕ → ℤ}
    {r : Sender.State × List Sender.Effect} (hd : (c.addr, buf) ∈ N.toSenders)
    (hc : c ∈ (N.senders i).conns) (hfd : 0 ≤ c.fd)
    (h : Sender.step (N.senders i) (.srtlaData c.ref (mem buf) (received buf) ts ret 0) = some r) :
    (network D).step N (.deliver i c.ref (c.addr, buf) (mem buf) ts ret 0) (N.afterSender i r) := by
  refine ⟨⟨hd, ⟨c, hc, rfl, hfd, addressesEqual_refl _⟩, fun _ _ => rfl⟩, ?_⟩
  show (Sender.step _ _).map _ = _
  rw [h]
  rfl

/-- A datagram arrives, at time `ts`. -/
def Act.Delivery (ts : ℤ) (_ : Net ι) : Act ι → Prop
  | .receive _ t _ | .deliver _ _ _ _ t _ _ => t = ts
  | .receiver _ | .sender _ _ => False

/-! ## Groups and the addresses they serve -/

/-- The group has a connection with this address. -/
def serves (g : ConnectionGroup) (a : SockaddrStorage) : Bool :=
  g.conns.any fun k => addressesEqual k.addr a

/-- How many of the links the group does not serve yet. -/
def newcomers (g : ConnectionGroup) (links : List Sender.Conn) : ℕ :=
  links.countP fun c => !serves g c.addr

variable {g g' : ConnectionGroup} {c : Sender.Conn} {todo : List Sender.Conn} {ts : ℤ} {i : ι}

theorem serves_eq_false_iff {a : SockaddrStorage} :
    serves g a = false ↔ ∀ k ∈ g.conns, addressesEqual k.addr a = false := by
  rw [serves, List.any_eq_false]
  exact forall₂_congr fun k _ => Bool.eq_false_iff.symm

theorem newcomers_anti (h : ∀ a, serves g a = true → serves g' a = true) (links : List Sender.Conn) :
    newcomers g' links ≤ newcomers g links := by
  refine List.countP_mono_left fun c _ hc => ?_
  rw [Bool.not_eq_true', Bool.eq_false_iff] at hc ⊢
  exact fun hg => hc (h _ hg)

/-- A group that is replaced by one with the same id is found in its place. -/
theorem findGroupById_put {groups : List ConnectionGroup} {id : SrtlaId}
    (hnodup : (groups.map ConnectionGroup.ref).Nodup) (hid : findGroupById groups id = some g)
    (href : g'.ref = g.ref) (hg' : g'.id = g.id) :
    findGroupById (Keyed.put ConnectionGroup.ref g' groups) id = some g' := by
  obtain ⟨hg, rfl⟩ := findGroupById_eq_some hid
  induction groups with
  | nil => cases hg
  | cons x groups ih =>
    show findGroupById ((if x.ref = g'.ref then g' else x) :: Keyed.put ConnectionGroup.ref g' groups) _ = _
    by_cases hx : x.id = g.id
    · rw [← hx, findGroupById_self] at hid
      rw [Option.some.inj hid, if_pos href.symm, ← hg', findGroupById_self]
    · have hne : ¬ x.ref = g'.ref := fun he =>
        hx (congrArg _ (Keyed.eq_of_key_eq hnodup List.mem_cons_self hg (he.trans href)))
      rw [findGroupById_cons_of_ne hx] at hid
      rw [if_neg hne, findGroupById_cons_of_ne hx]
      exact ih (List.nodup_cons.mp hnodup).2 (findGroupById_eq_some hid).1 hid

/-! ## One link -/

/-- A link that gets a REG3 is in service. -/
theorem step_reg3 {s : Sender.State} (hs : s.exited = false) (hdistinct : s.Distinct) (hc : c ∈ s.conns)
    (hfd : 0 ≤ c.fd) (ts : ℤ) (ret : ℕ → ℤ) :
    ∃ s', Sender.step s (.srtlaData c.ref (mem reg3Frame) (received reg3Frame) ts ret 0) = some (s', []) ∧
      s'.exited = false ∧ s'.srtlaId = s.srtlaId ∧
      s'.conns = Keyed.modify Sender.Conn.ref c.ref (Sender.LinkChange.heard ts).apply s.conns :=
  ⟨_, step_confirm hs ((Keyed.get_eq_some_iff hdistinct.refs).mpr ⟨hc, rfl⟩) hfd ret, hs, rfl,
    Keyed.put_eq_modify (f := (Sender.LinkChange.heard ts).apply) hdistinct.refs hc rfl⟩

/-- A link after those in `refs` have heard from the receiver at `ts`. -/
def heardIn (refs : List ℕ) (ts : ℤ) (c : Sender.Conn) : Sender.Conn :=
  if c.ref ∈ refs then { c with lastRcvd := ts } else c

theorem heardIn_frame (refs : List ℕ) (ts : ℤ) (c : Sender.Conn) :
    (heardIn refs ts c).ref = c.ref ∧ (heardIn refs ts c).fd = c.fd ∧
      (heardIn refs ts c).addr = c.addr := by
  unfold heardIn
  split_ifs <;> exact ⟨rfl, rfl, rfl⟩

theorem heardIn_cons (ref : ℕ) (refs : List ℕ) (ts : ℤ) (c : Sender.Conn) :
    heardIn refs ts (if c.ref = ref then (Sender.LinkChange.heard ts).apply c else c) =
      heardIn (ref :: refs) ts c := by
  by_cases href : c.ref = ref
  · have hmem : c.ref ∈ ref :: refs := by
      rw [href]
      exact List.mem_cons_self
    rw [if_pos href]
    unfold heardIn
    rw [if_pos hmem]
    split_ifs <;> rfl
  · have hmem : c.ref ∈ ref :: refs ↔ c.ref ∈ refs := List.mem_cons.trans (or_iff_right href)
    rw [if_neg href]
    unfold heardIn
    simp only [hmem]

theorem heardIn_nil (ts : ℤ) : heardIn [] ts = id := by
  funext c
  exact if_neg List.not_mem_nil

/-- The system while links of sender `i` join the group `g`: the REG2s of the links
    `todo` are in flight, no other group owns one of their addresses, and the group
    has room for those it does not serve. -/
structure Joining (N : Net ι) (i : ι) (g : ConnectionGroup) (todo : List Sender.Conn) : Prop where
  inv : Inv N.receiver
  distinct : (N.senders i).Distinct
  running : (N.senders i).exited = false
  found : findGroupById N.receiver.groups (N.senders i).srtlaId = some g
  links : ∀ c ∈ todo, c ∈ (N.senders i).conns ∧ 0 ≤ c.fd
  nodup : (todo.map Sender.Conn.ref).Nodup
  asked : ∀ c ∈ todo, (c.addr, reg2Frame (N.senders i).srtlaId) ∈ N.toReceiver
  owner : ∀ c ∈ todo, ∀ x ∈ N.receiver.groups, x.Owns c.addr → x = g
  room : g.conns.length + newcomers g todo ≤ maxConnsPerGroup

namespace Joining

/-- The receiver answers the REG2 of a link: it adds a connection, or it repeats
    its answer. -/
theorem answered (h : Joining N i g (c :: todo)) (D : Deployment ι) (ts : ℤ) :
    ∃ N' g', (network D).step N (.receive (c.addr, reg2Frame (N.senders i).srtlaId) ts At.replyEnv) N' ∧
      Joining N' i g' todo ∧ N'.senders = N.senders ∧ (c.addr, reg3Frame) ∈ N'.toSenders ∧
      serves g' c.addr = true ∧ ∀ a, serves g a = true → serves g' a = true := by
  set id := (N.senders i).srtlaId with hid
  set R := (Receiver.step N.receiver (.packet ((reg2Frame id).take mtu) c.addr ts At.replyEnv)) with hR
  have hread : readBlock (mem (reg2Frame id)) 2 256 = id := by
    rw [reg2Frame, readBlock_regFrame]
  have hlast : newcomers g todo ≤ newcomers g (c :: todo) := by
    rw [newcomers, newcomers, List.countP_cons]
    exact Nat.le_add_right _ _
  have hroom : (∀ k ∈ g.conns, addressesEqual k.addr c.addr = false) →
      g.conns.length + newcomers g todo < maxConnsPerGroup := by
    intro hnew
    have hcons : newcomers g (c :: todo) = newcomers g todo + 1 := by
      rw [newcomers, newcomers, List.countP_cons_of_pos]
      rw [serves_eq_false_iff.mpr hnew]
      rfl
    have := h.room
    omega
  obtain ⟨heff, hgroups⟩ := @step_reg2_answered N.receiver c.addr ts At.replyEnv h.inv (reg2Frame id) g
    (isSrtlaReg2_reg2Frame id) (by rw [hread]; exact h.found) (h.owner c List.mem_cons_self)
    (fun hnew => (Nat.le_add_right _ _).trans_lt (hroom hnew)) rfl
  have hstep : Receiver.step N.receiver (.packet (reg2Frame id) c.addr ts At.replyEnv) = R := by
    rw [hR, reg2Frame, take_regFrame]
  rw [hstep] at heff hgroups
  -- the group after the step
  obtain ⟨g', hput, href, hidg, hserves, hkept, hsize⟩ : ∃ g' : ConnectionGroup,
      R.1.groups = Keyed.put ConnectionGroup.ref g' N.receiver.groups ∧ g'.ref = g.ref ∧ g'.id = g.id ∧
        serves g' c.addr = true ∧ (∀ a, serves g a = true → serves g' a = true) ∧
        g'.conns.length + newcomers g todo ≤ maxConnsPerGroup := by
    rcases hgroups with ⟨hnew, _, hput⟩ | ⟨⟨k, hk, haddr⟩, hput⟩
    · refine ⟨_, hput, rfl, rfl, ?_, fun a ha => ?_, ?_⟩
      · exact List.any_eq_true.mpr ⟨_, List.mem_append_right _ (List.mem_singleton_self _),
          addressesEqual_refl _⟩
      · obtain ⟨k, hk, haddr⟩ := List.any_eq_true.mp ha
        exact List.any_eq_true.mpr ⟨k, List.mem_append_left _ hk, haddr⟩
      · show (g.conns ++ [_]).length + _ ≤ _
        rw [List.length_append, List.length_singleton]
        have := hroom hnew
        omega
    · refine ⟨_, hput, rfl, rfl, List.any_eq_true.mpr ⟨k, hk, haddr⟩, fun a ha => ha, ?_⟩
      have := h.room
      show g.conns.length + _ ≤ _
      omega
  refine ⟨_, g', ⟨⟨h.asked c List.mem_cons_self, ?_⟩, rfl⟩, ?_, rfl, ?_, hserves, hkept⟩
  · rw [reg2Frame, length_regFrame]
    decide
  · refine ⟨(step_regStep h.inv _).inv h.inv, h.distinct, h.running, ?_,
      fun d hd => h.links d (List.mem_cons_of_mem _ hd), (List.nodup_cons.mp h.nodup).2,
      fun d hd => h.asked d (List.mem_cons_of_mem _ hd), ?_, ?_⟩
    · show findGroupById R.1.groups id = some g'
      rw [hput]
      exact findGroupById_put h.inv.refs h.found href hidg
    · intro d hd x hx howns
      replace hx : x ∈ R.1.groups := hx
      rw [hput] at hx
      rcases Keyed.mem_put.mp hx with ⟨rfl, _⟩ | ⟨hx, hne⟩
      · rfl
      · rw [h.owner d (List.mem_cons_of_mem _ hd) x hx howns] at hne
        exact absurd href.symm hne
    · have := newcomers_anti hkept todo
      omega
  · refine List.mem_append_right _ ?_
    show _ ∈ R.2.flatMap Receiver.Effect.wire
    rw [heff]
    exact List.mem_singleton_self _

/-- The link hears the answer. -/
theorem heard (h : Joining N i g todo) (D : Deployment ι) (ts : ℤ) (hc : c ∈ (N.senders i).conns)
    (hfd : 0 ≤ c.fd) (hnot : c.ref ∉ todo.map Sender.Conn.ref) (hd : (c.addr, reg3Frame) ∈ N.toSenders) :
    ∃ N', (network D).step N (.deliver i c.ref (c.addr, reg3Frame) (mem reg3Frame) ts (fun _ => 0) 0) N' ∧
      Joining N' i g todo ∧ (N'.senders i).srtlaId = (N.senders i).srtlaId ∧
      (N'.senders i).conns =
        Keyed.modify Sender.Conn.ref c.ref (Sender.LinkChange.heard ts).apply (N.senders i).conns := by
  obtain ⟨s', hstep, hexited, hid, hconns⟩ := step_reg3 h.running h.distinct hc hfd ts fun _ => 0
  have hsender : (N.afterSender i (s', [])).senders i = s' := Function.update_self ..
  refine ⟨N.afterSender i (s', []), step_deliver hd hc hfd hstep, ?_, by rw [hsender, hid],
    by rw [hsender, hconns]⟩
  refine ⟨h.inv, ?_, ?_, ?_, fun d hd => ⟨?_, (h.links d hd).2⟩, h.nodup, fun d hd => ?_, h.owner, h.room⟩
  · rw [hsender]
    exact h.distinct.step hstep
  · rw [hsender, hexited]
  · rw [hsender, hid]
    exact h.found
  · rw [hsender, hconns]
    refine List.mem_map.mpr ⟨d, (h.links d hd).1, if_neg fun he => ?_⟩
    exact hnot (List.mem_map.mpr ⟨d, hd, he⟩)
  · rw [hsender, hid]
    exact List.mem_append_left _ (h.asked d hd)

/-- **The links join**, with two deliveries for each: its REG2 arrives at the
    receiver, and the REG3 for it at the link. -/
theorem all (h : Joining N i g todo) (D : Deployment ι) (ts : ℤ) :
    ∃ N' g', (network D).StepsIf (Act.Delivery ts) N (2 * todo.length) N' ∧
      findGroupById N'.receiver.groups (N'.senders i).srtlaId = some g' ∧
      (N'.senders i).srtlaId = (N.senders i).srtlaId ∧
      (∀ a, serves g a = true → serves g' a = true) ∧ (∀ c ∈ todo, serves g' c.addr = true) ∧
      (N'.senders i).conns = (N.senders i).conns.map (heardIn (todo.map Sender.Conn.ref) ts) := by
  induction todo generalizing N g with
  | nil =>
    refine ⟨N, g, .refl N, h.found, rfl, fun _ ha => ha, fun _ hc => absurd hc List.not_mem_nil, ?_⟩
    rw [List.map_nil, heardIn_nil, List.map_id]
  | cons c todo ih =>
    obtain ⟨hc, hfd⟩ := h.links c List.mem_cons_self
    obtain ⟨hnot, _⟩ := List.nodup_cons.mp h.nodup
    obtain ⟨N₁, g₁, hstep₁, h₁, hsenders, hreply, hserves, hkept⟩ := h.answered D ts
    rw [← hsenders] at hc
    obtain ⟨N₂, hstep₂, h₂, hid, hconns⟩ := h₁.heard D ts hc hfd hnot hreply
    obtain ⟨N', g', hsteps, hfound, hid', hkept', hserves', hconns'⟩ := ih h₂
    refine ⟨N', g', ?_, hfound, ?_, fun a ha => hkept' a (hkept a ha), ?_, ?_⟩
    · rw [List.length_cons, mul_add, add_comm]
      have hpair : (network D).StepsIf (Act.Delivery ts) N 2 N₂ :=
        .tail (.single (by rfl) hstep₁) (by rfl) hstep₂
      exact hpair.trans hsteps
    · rw [hid', hid, hsenders]
    · intro d hd
      rcases List.mem_cons.mp hd with rfl | hd
      · exact hkept' _ hserves
      · exact hserves' d hd
    · rw [hconns', hconns, hsenders, Keyed.modify, List.map_map]
      refine List.map_congr_left fun d _ => ?_
      exact heardIn_cons c.ref _ ts d

end Joining

/-! ## The receiver knows the group -/

/-- The links of a sender that have timed out. -/
def silent (s : Sender.State) (ts : ℤ) : List Sender.Conn := s.conns.filter fun c => c.timedOut ts

/-- A housekeeping at `ms` that registers links: the sender runs and has not given up
    on the receiver, its links have sockets, no REG1 is waiting for its answer, and
    the REG2s are sent. -/
structure Probing (s : Sender.State) (env : Sender.HousekeepingEnv) (ms : ℕ) : Prop where
  running : s.exited = false
  effective : s.Effective (.housekeeping env) ms
  waits : s.Waits ms
  sockets : ∀ c ∈ s.conns, 0 ≤ c.fd
  idle : s.pendingReg2Conn = none ∨ s.pendingRegTimeout < (ms / 1000 : ℕ)
  sent : ∀ c ∈ s.conns, c.timedOut (ms / 1000 : ℕ) = true → env.ret c.ref = srtlaTypeReg2Len

/-- Links that have heard from the receiver are in service, and so are those that had
    not timed out. -/
theorem timedOut_heardIn {conns : List Sender.Conn} {refs : List ℕ}
    (h : ∀ c ∈ conns, c.timedOut ts = true → c.ref ∈ refs) {d : Sender.Conn}
    (hd : d ∈ (conns.map (Sender.Conn.probed ts)).map (heardIn refs ts)) : d.timedOut ts = false := by
  rw [List.map_map] at hd
  obtain ⟨c, hc, rfl⟩ := List.mem_map.mp hd
  show (heardIn refs ts (c.probed ts)).timedOut ts = false
  unfold heardIn
  split_ifs with hmem
  · show decide (ts + Sender.connTimeout < ts) = false
    rw [decide_eq_false_iff_not, Sender.connTimeout]
    omega
  · rw [(c.probed_frame ts).1] at hmem
    have hlive : ¬ c.timedOut ts = true := fun hout => hmem (h c hc hout)
    unfold Sender.Conn.probed
    rw [if_neg hlive]
    exact Bool.eq_false_iff.mpr hlive

/-- The links are the same, with the same sockets. -/
theorem map_link_heardIn (conns : List Sender.Conn) (refs : List ℕ) (ts : ℤ) :
    ((conns.map (Sender.Conn.probed ts)).map (heardIn refs ts)).map (fun c => (c.ref, c.fd, c.addr)) =
      conns.map fun c => (c.ref, c.fd, c.addr) := by
  rw [List.map_map, List.map_map]
  refine List.map_congr_left fun c _ => ?_
  obtain ⟨href, hfd, haddr⟩ := heardIn_frame refs ts (c.probed ts)
  obtain ⟨href', hfd', haddr'⟩ := c.probed_frame ts
  show ((heardIn refs ts (c.probed ts)).ref, (heardIn refs ts (c.probed ts)).fd,
    (heardIn refs ts (c.probed ts)).addr) = _
  rw [href, hfd, haddr, href', hfd', haddr']

/-- **Silent links come back.** In every state of the system whose receiver has the
    group of sender `i`, an effective housekeeping of the sender and two deliveries for
    each link that has timed out put all links in service: the group has a connection
    for every link that had timed out, beside those it had, and data may be sent on
    every link. -/
theorem silent_links_rejoin (h : (network D).Reachable N) {env : Sender.HousekeepingEnv} {ms : ℕ}
    (hlocal : (Sender.Op.housekeeping env).Local (D.links i)) (hprobe : Probing (N.senders i) env ms)
    (hknown : findGroupById N.receiver.groups (N.senders i).srtlaId = some g)
    (howner : ∀ c ∈ silent (N.senders i) (ms / 1000 : ℕ), ∀ x ∈ N.receiver.groups, x.Owns c.addr → x = g)
    (hroom : g.conns.length + newcomers g (silent (N.senders i) (ms / 1000 : ℕ)) ≤ maxConnsPerGroup) :
    ∃ N₁ N', (network D).step N (.sender i (.housekeeping env)) N₁ ∧
      (network D).StepsIf (Act.Delivery (ms / 1000 : ℕ)) N₁
        (2 * (silent (N.senders i) (ms / 1000 : ℕ)).length) N' ∧
      (N'.senders i).conns.map (fun c => (c.ref, c.fd, c.addr)) =
        (N.senders i).conns.map (fun c => (c.ref, c.fd, c.addr)) ∧
      (∀ c ∈ (N'.senders i).conns, c.timedOut (ms / 1000 : ℕ) = false) ∧
      ∃ g' ∈ N'.receiver.groups, g'.id = (N'.senders i).srtlaId ∧
        (∀ a, serves g a = true → serves g' a = true) ∧
        ∀ c ∈ silent (N.senders i) (ms / 1000 : ℕ), serves g' c.addr = true := by
  obtain ⟨hinv, hdistinct⟩ := reachable_invariants h
  generalize hts : ((ms / 1000 : ℕ) : ℤ) = ts at *
  obtain ⟨r, hstep, hrunning, hid, _, _, hconns, _, hwire⟩ := Sender.housekeeping_probes hprobe.effective
    hprobe.running hprobe.sockets hprobe.waits hprobe.idle
  rw [hts] at hconns hwire
  set todo := (silent (N.senders i) ts).map (Sender.Conn.probed ts) with htodo
  have hsilent : ∀ c ∈ silent (N.senders i) ts, c ∈ (N.senders i).conns ∧ c.timedOut ts = true :=
    fun c hc => List.mem_filter.mp hc
  have hsender : (N.afterSender i r).senders i = r.1 := Function.update_self ..
  have hrefs : todo.map Sender.Conn.ref = (silent (N.senders i) ts).map Sender.Conn.ref := by
    rw [htodo, List.map_map]
    exact List.map_congr_left fun c _ => (c.probed_frame ts).1
  have hjoining : Joining (N.afterSender i r) i g todo := by
    refine ⟨hinv, ?_, ?_, ?_, ?_, ?_, ?_, ?_, ?_⟩
    · rw [hsender]
      exact (hdistinct i).step hstep
    · rw [hsender, hrunning]
    · rw [hsender, hid]
      exact hknown
    · intro d hd
      obtain ⟨c, hc, rfl⟩ := List.mem_map.mp hd
      rw [hsender, hconns, (c.probed_frame ts).2.1]
      exact ⟨List.mem_map_of_mem (hsilent c hc).1, hprobe.sockets c (hsilent c hc).1⟩
    · rw [hrefs]
      exact (hdistinct i).refs.sublist (List.filter_sublist.map _)
    · intro d hd
      obtain ⟨c, hc, rfl⟩ := List.mem_map.mp hd
      obtain ⟨hmem, hout⟩ := hsilent c hc
      rw [hsender, hid, (c.probed_frame ts).2.2]
      refine List.mem_append_right _ (hwire c hmem hout (hprobe.sent c hmem ?_))
      rw [hts]
      exact hout
    · intro d hd x hx howns
      obtain ⟨c, hc, rfl⟩ := List.mem_map.mp hd
      rw [(c.probed_frame ts).2.2] at howns
      exact howner c hc x hx howns
    · have hnew : newcomers g todo = newcomers g (silent (N.senders i) ts) := by
        rw [newcomers, newcomers, htodo, List.countP_map]
        refine List.countP_congr fun c _ => ?_
        show (!serves g (c.probed ts).addr) = true ↔ _
        rw [(c.probed_frame ts).2.2]
      rw [hnew]
      exact hroom
  obtain ⟨N', g', hsteps, hfound, hid', hkept, hserves, hconns'⟩ := hjoining.all D ts
  rw [hsender, hconns] at hconns'
  refine ⟨N.afterSender i r, N', step_own hlocal hstep, ?_, ?_, ?_, g', (findGroupById_eq_some hfound).1,
    (findGroupById_eq_some hfound).2, hkept, fun c hc => ?_⟩
  · rw [htodo, List.length_map] at hsteps
    exact hsteps
  · rw [hconns']
    exact map_link_heardIn _ _ ts
  · intro d hd
    rw [hconns'] at hd
    refine timedOut_heardIn (fun c hc hout => ?_) hd
    rw [hrefs]
    exact List.mem_map_of_mem (List.mem_filter.mpr ⟨hc, hout⟩)
  · rw [← (c.probed_frame ts).2.2]
    exact hserves _ (List.mem_map_of_mem hc)

/-- The clock and the sockets of a housekeeping of `oneSender`. -/
def pairEnv (ms : ℕ) : Sender.HousekeepingEnv :=
  ⟨some ms, openEnvs (sampleAddr 1) (sampleAddr 2), fun _ => srtlaTypeReg2Len⟩

theorem probing_pair {id : SrtlaId} {timeout : ℤ} {lastRan ms : ℕ} (hran : lastRan + 1000 ≤ ms)
    (hms : ms ≤ lastRan + 10000 ∨ lastRan = 0) :
    Probing (twoLinks (sampleAddr 1) (sampleAddr 2) id none timeout lastRan) (pairEnv ms) ms where
  running := rfl
  effective := ⟨_, rfl, rfl, hran⟩
  waits := hms.symm
  sockets := by
    intro c hc
    rcases List.mem_pair.mp hc with rfl | rfl
    · exact openLink_fd 1 srcB _
    · exact openLink_fd 0 srcA _
  idle := Or.inl rfl
  sent := fun _ _ _ => rfl

theorem silent_pair {id : SrtlaId} {timeout : ℤ} {lastRan : ℕ} (hts : 4 < ts) :
    silent (twoLinks (sampleAddr 1) (sampleAddr 2) id none timeout lastRan) ts =
      [openLink 1 srcB (sampleAddr 2), openLink 0 srcA (sampleAddr 1)] := by
  have hout : ∀ ref src addr, (openLink ref src addr).timedOut ts = true := by
    intro ref src addr
    refine decide_eq_true ?_
    show 0 + Sender.connTimeout < ts
    rw [Sender.connTimeout]
    omega
  refine List.filter_eq_self.mpr fun c hc => ?_
  rcases List.mem_pair.mp hc with rfl | rfl
  · exact hout 1 srcB _
  · exact hout 0 srcA _

/-- The first link has joined the group, but its REG3 was lost, and so was the REG2 of
    the second link. The housekeeping two seconds later brings both into service. -/
theorem silent_links_rejoin_pair :
    ∃ N, (network oneSender).Reachable N ∧ (N.senders ()).activeConnections = 0 ∧
      ∃ N₁ N', (network oneSender).step N (.sender () (.housekeeping (pairEnv 102000))) N₁ ∧
        (network oneSender).StepsIf (Act.Delivery 102) N₁ 4 N' ∧
        (∀ c ∈ (N'.senders ()).conns, c.timedOut 102 = false) ∧
        ∃ g' ∈ N'.receiver.groups, serves g' (sampleAddr 1) = true ∧ serves g' (sampleAddr 2) = true := by
  obtain ⟨N, up, down, -, -, hat⟩ := At.registered (fun _ : Unit => fillHalf 1) (fun _ => sampleAddr 1)
    (fun _ => sampleAddr 2) () (fillHalf 2)
  have hreach : (network oneSender).Reachable N := hat.reach.reachable
  set g := handshakeGroup (.ofHalves (fillHalf 1) (zeroBlock 128)) (fillHalf 2) (sampleAddr 1) (sampleAddr 1)
    100 100 with hg
  have hid : g.id = .ofHalves (fillHalf 1) (fillHalf 2) :=
    congrArg (SrtlaId.ofHalves · _) (SrtlaId.firstHalf_ofHalves _ _)
  have hsilent : silent (N.senders ()) ((102000 / 1000 : ℕ) : ℤ) =
      [openLink 1 srcB (sampleAddr 2), openLink 0 srcA (sampleAddr 1)] := by
    rw [hat.sender]
    exact silent_pair (by decide)
  obtain ⟨N₁, N', hstep, hsteps, _, hlive, g', hg', _, _, hserves⟩ := @silent_links_rejoin Unit _ oneSender N g ()
    hreach (pairEnv 102000) 102000 (openEnvs_addr _ _)
    (by rw [hat.sender]; exact probing_pair (by decide) (by decide))
    (by rw [hat.groups, hat.sender]
        show findGroupById [g] (.ofHalves (fillHalf 1) (fillHalf 2)) = some g
        rw [← hid]
        exact findGroupById_self g [])
    (by rw [hat.groups]; exact fun _ _ x hx _ => List.mem_singleton.mp hx)
    (by
      have hcount : newcomers g (silent (N.senders ()) ((102000 / 1000 : ℕ) : ℤ)) ≤ 2 := by
        rw [hsilent]
        exact List.countP_le_length
      show 1 + _ ≤ 16
      omega)
  rw [hsilent] at hsteps hserves
  refine ⟨N, hreach, by rw [hat.sender]; rfl, N₁, N', hstep, hsteps, hlive, g', hg', ?_, ?_⟩
  · exact hserves (openLink 0 srcA (sampleAddr 1)) (List.mem_cons_of_mem _ List.mem_cons_self)
  · exact hserves (openLink 1 srcB (sampleAddr 2)) List.mem_cons_self

/-! ## The receiver does not know the group -/

/-- A REG2 for a group that the receiver does not have is answered with an NGP. -/
theorem step_unknown {R : Receiver.State} {id : SrtlaId} (addr : SockaddrStorage) (ts : ℤ)
    (h : findGroupById R.groups id = none) :
    let r := Receiver.step R (.packet ((reg2Frame id).take mtu) addr ts At.replyEnv)
    r.1.groups = R.groups ∧ r.1.limiter = R.limiter ∧
      (addr, ngpFrame) ∈ r.2.flatMap Receiver.Effect.wire := by
  have hreg : registerConnection R addr (mem (reg2Frame id)) ts At.replyEnv =
      (-1, R.inc [(.connRegNoGroup, 1)], [regReply srtlaTypeRegNgp addr At.replyEnv]) := by
    unfold registerConnection
    rw [reg2Frame, readBlock_regFrame, h]
  dsimp only [Receiver.step]
  rw [reg2Frame, take_regFrame, ← reg2Frame, processSinglePacket_reg2 (isSrtlaReg2_reg2Frame id), hreg]
  exact ⟨rfl, rfl, List.mem_singleton_self _⟩

/-- The receiver would admit a REG1 from this address: it is not locked out, no group
    owns it, and there is room in the table or a group that may be evicted. -/
structure Admits (R : Receiver.State) (addr : SockaddrStorage) (ts : ℤ) : Prop where
  unblocked : R.limiter.isBlocked addr ts = false
  room : ¬ (R.groups.length ≥ maxGroups ∧ oldestPending R.groups = none)
  free : ∀ x ∈ R.groups, ¬ x.Owns addr

/-- The REG1 creates a group and is answered with its id. -/
theorem step_admitted {R : Receiver.State} {addr : SockaddrStorage} {ts : ℤ} (h : Admits R addr ts)
    (id : SrtlaId) (random : IdHalf) :
    let g := ConnectionGroup.create R.nextRef id.firstHalf random ts addr
    let r := Receiver.step R (.packet ((reg1Frame id).take mtu) addr ts (At.createEnv random))
    r.1.groups = R.afterEviction ++ [g] ∧
      (addr, reg2Frame (.ofHalves id.firstHalf random)) ∈ r.2.flatMap Receiver.Effect.wire := by
  have hout : regGroupOutcome R addr ts (At.createEnv random) = .registered := by
    rw [regGroupOutcome_eq_registered_iff]
    refine ⟨h.unblocked, h.room, findByAddress_eq_none_iff.mpr fun x hx => ?_, rfl⟩
    exact h.free x ((afterEviction_sublist R).subset hx)
  obtain ⟨_, hcase⟩ := registerGroup_cases R addr (mem (reg1Frame id)) ts (At.createEnv random)
  rw [hout] at hcase
  obtain ⟨_, hgroups, _, heff⟩ := hcase
  have hnew : newGroup R addr (mem (reg1Frame id)) ts (At.createEnv random) =
      .create R.nextRef id.firstHalf random ts addr := by
    rw [newGroup, reg1Frame, readBlock_regFrame_half]
    rfl
  rw [hnew] at hgroups heff
  dsimp only [Receiver.step]
  rw [reg1Frame, take_regFrame, ← reg1Frame, processSinglePacket_reg1 (isSrtlaReg1_reg1Frame id)]
  refine ⟨hgroups, ?_⟩
  rw [heff, List.flatMap_singleton, Effect.wire, reg2Frame, padWire_regFrame, length_regFrame]
  exact List.mem_singleton_self _

theorem findGroupById_concat {groups : List ConnectionGroup} (h : ∀ x ∈ groups, x.id ≠ g.id) :
    findGroupById (groups ++ [g]) g.id = some g := by
  induction groups with
  | nil => exact findGroupById_self g []
  | cons x groups ih =>
    rw [List.cons_append, findGroupById_cons_of_ne (h x List.mem_cons_self)]
    exact ih fun y hy => h y (List.mem_cons_of_mem _ hy)

/-- The REG2 of a link of a sender without a link in service reaches a receiver that
    does not know the id. Four deliveries later the receiver has a new group, and the
    sender has adopted its id and sent a REG2 on every open link. -/
theorem obtain_group {s : Sender.State} (hinv : Inv N.receiver) (hsender : N.senders i = s)
    (hdistinct : s.Distinct) (hrunning : s.exited = false) (hactive : s.activeConnections = 0)
    (hpending : s.pendingReg2Conn = none) (htimeout : s.pendingRegTimeout < ts) (hc : c ∈ s.conns)
    (hfd : 0 ≤ c.fd) (hasked : (c.addr, reg2Frame s.srtlaId) ∈ N.toReceiver)
    (hunknown : findGroupById N.receiver.groups s.srtlaId = none) (hadmits : Admits N.receiver c.addr ts)
    (D : Deployment ι) (random : IdHalf) :
    ∃ N' g kept, (network D).StepsIf (Act.Delivery ts) N 4 N' ∧ Inv N'.receiver ∧
      N'.receiver.groups = kept ++ [g] ∧ kept.Sublist N.receiver.groups ∧ g.conns = [] ∧
      g.id = .ofHalves s.srtlaId.firstHalf random ∧ (N'.senders i).srtlaId = g.id ∧
      (N'.senders i).exited = false ∧ (N'.senders i).conns = s.conns ∧ (N'.senders i).Distinct ∧
      ∀ d ∈ s.conns, 0 ≤ d.fd → (d.addr, reg2Frame g.id) ∈ N'.toReceiver := by
  have hget := (Keyed.get_eq_some_iff hdistinct.refs).mpr ⟨hc, rfl⟩
  have hpos : ∀ type id, 0 < (regFrame type id).length := fun type id => by
    rw [length_regFrame]
    decide
  -- the REG2 arrives and is answered with an NGP
  obtain ⟨hgroups₁, hlimiter₁, hngp⟩ := step_unknown c.addr ts hunknown
  set N₁ := N.afterReceiver (.packet ((reg2Frame s.srtlaId).take mtu) c.addr ts At.replyEnv) with hN₁
  have hstep₁ : (network D).step N (.receive (c.addr, reg2Frame s.srtlaId) ts At.replyEnv) N₁ :=
    ⟨⟨hasked, hpos _ _⟩, rfl⟩
  have hinv₁ : Inv N₁.receiver := (step_regStep hinv _).inv hinv
  have hgroups₁ : N₁.receiver.groups = N.receiver.groups := hgroups₁
  have hsender₁ : N₁.senders i = s := hsender
  -- the link asks for a group
  have hask := step_ask hrunning hget hfd hactive hpending htimeout
  set s₂ : Sender.State := { s with
    pendingReg2Conn := some c.ref, pendingRegTimeout := ts + Sender.reg2Timeout } with hs₂
  have hstep₂ := @step_deliver ι _ D N₁ i c ngpFrame ts (fun _ => 258) _ (List.mem_append_right _ hngp)
    (by rw [hsender₁]; exact hc) hfd (by rw [hsender₁]; exact hask)
  set N₂ := N₁.afterSender i (s₂, [.link c.ref c.addr s.srtlaAddr (reg1Frame s.srtlaId) 258]) with hN₂
  have hsender₂ : N₂.senders i = s₂ := Function.update_self ..
  have hreg1 : (c.addr, reg1Frame s.srtlaId) ∈ N₂.toReceiver := by
    refine List.mem_append_right _ ?_
    rw [List.flatMap_singleton, reg1Frame, wire_regFrame]
    exact List.mem_singleton_self _
  -- the receiver creates it
  have hadmits₂ : Admits N₂.receiver c.addr ts := by
    show Admits N₁.receiver c.addr ts
    refine ⟨?_, ?_, ?_⟩
    · rw [show N₁.receiver.limiter = N.receiver.limiter from hlimiter₁]
      exact hadmits.unblocked
    · rw [hgroups₁]
      exact hadmits.room
    · rw [hgroups₁]
      exact hadmits.free
  obtain ⟨hgroups₃, hreg2⟩ := step_admitted hadmits₂ s.srtlaId random
  set g := ConnectionGroup.create N₂.receiver.nextRef s.srtlaId.firstHalf random ts c.addr with hg
  set N₃ := N₂.afterReceiver
    (.packet ((reg1Frame s.srtlaId).take mtu) c.addr ts (At.createEnv random)) with hN₃
  have hstep₃ : (network D).step N₂ (.receive (c.addr, reg1Frame s.srtlaId) ts (At.createEnv random)) N₃ :=
    ⟨⟨hreg1, hpos _ _⟩, rfl⟩
  have hsender₃ : N₃.senders i = s₂ := hsender₂
  -- the link hears of it
  have hadopt := @step_adopt s₂ c ts g.id hrunning hget hfd rfl (SrtlaId.firstHalf_ofHalves _ _)
  set s₄ : Sender.State := { s₂ with
    srtlaId := g.id, pendingReg2Conn := none, pendingRegTimeout := ts + Sender.reg3Timeout } with hs₄
  have hstep₄ := @step_deliver ι _ D N₃ i c (reg2Frame g.id) ts (fun _ => 258) _
    (List.mem_append_right _ hreg2) (by rw [hsender₃]; exact hc) hfd (by rw [hsender₃]; exact hadopt)
  set N₄ := N₃.afterSender i (s₄, _) with hN₄
  have hsender₄ : N₄.senders i = s₄ := Function.update_self ..
  refine ⟨N₄, g, N₂.receiver.afterEviction, ?_, (step_regStep hinv₁ _).inv hinv₁, hgroups₃, ?_, rfl, rfl, ?_,
    ?_, ?_, ?_, fun d hd hopen => ?_⟩
  · exact .tail (.tail (.tail (.single (by rfl) hstep₁) (by rfl) hstep₂) (by rfl) hstep₃) (by rfl) hstep₄
  · rw [← hgroups₁]
    exact afterEviction_sublist N₂.receiver
  · rw [hsender₄]
  · rw [hsender₄]
    exact hrunning
  · rw [hsender₄]
  · rw [hsender₄]
    exact ⟨hdistinct.refs, hdistinct.fresh⟩
  · refine List.mem_append_right _ ?_
    dsimp only
    rw [wire_broadcastReg2]
    exact List.mem_map.mpr ⟨d, List.mem_filter.mpr ⟨hd, decide_eq_true hopen⟩, rfl⟩

/-- **A sender registers from scratch.** In every state of the system whose receiver
    does not know the id of sender `i`, an effective housekeeping of a sender without
    a link in service, four deliveries and two more for each link give the sender a new
    group: the id is the one the receiver drew, the group has a connection for every
    link, and data may be sent on every link. -/
theorem links_register (h : (network D).Reachable N) {env : Sender.HousekeepingEnv} {ms : ℕ}
    (hlocal : (Sender.Op.housekeeping env).Local (D.links i)) (hprobe : Probing (N.senders i) env ms)
    (hnone : (N.senders i).NoneActive ms) (htimeout : (N.senders i).pendingRegTimeout < (ms / 1000 : ℕ))
    (hunknown : findGroupById N.receiver.groups (N.senders i).srtlaId = none)
    (hc : c ∈ (N.senders i).conns) (hadmits : Admits N.receiver c.addr (ms / 1000 : ℕ))
    (hfree : ∀ d ∈ (N.senders i).conns, ∀ x ∈ N.receiver.groups, ¬ x.Owns d.addr)
    (hlen : (N.senders i).conns.length ≤ maxConnsPerGroup) (random : IdHalf)
    (hrandom : ∀ x ∈ N.receiver.groups, x.id ≠ .ofHalves (N.senders i).srtlaId.firstHalf random) :
    ∃ N₁ N', (network D).step N (.sender i (.housekeeping env)) N₁ ∧
      (network D).StepsIf (Act.Delivery (ms / 1000 : ℕ)) N₁ (4 + 2 * (N.senders i).conns.length) N' ∧
      (N'.senders i).conns.map (fun c => (c.ref, c.fd, c.addr)) =
        (N.senders i).conns.map (fun c => (c.ref, c.fd, c.addr)) ∧
      (N'.senders i).srtlaId = .ofHalves (N.senders i).srtlaId.firstHalf random ∧
      ∃ g' ∈ N'.receiver.groups, g'.id = (N'.senders i).srtlaId ∧
        ∀ d ∈ (N'.senders i).conns, d.timedOut (ms / 1000 : ℕ) = false ∧ serves g' d.addr = true := by
  obtain ⟨hinv, hdistinct⟩ := reachable_invariants h
  have hout : ∀ d ∈ (N.senders i).conns, d.timedOut (ms / 1000 : ℕ) = true := fun d hd =>
    (hnone d hd).resolve_left (not_lt.mpr (hprobe.sockets d hd))
  obtain ⟨r, hstep, hrunning, hid, hpending, htimeout₁, hconns, hactive, hwire⟩ :=
    Sender.housekeeping_probes hprobe.effective hprobe.running hprobe.sockets hprobe.waits hprobe.idle
  have hasked := hwire c hc (hout c hc) (hprobe.sent c hc (hout c hc))
  generalize hts : ((ms / 1000 : ℕ) : ℤ) = ts at *
  obtain ⟨_, hfd, haddr⟩ := c.probed_frame ts
  have hdistinct₁ : r.1.Distinct := (hdistinct i).step hstep
  have hopen : ∀ d ∈ r.1.conns, 0 ≤ d.fd := by
    rw [hconns]
    intro d hd
    obtain ⟨e, he, rfl⟩ := List.mem_map.mp hd
    rw [(e.probed_frame ts).2.1]
    exact hprobe.sockets e he
  have hmem : c.probed ts ∈ r.1.conns := by
    rw [hconns]
    exact List.mem_map_of_mem hc
  -- the link at `c` obtains a group
  obtain ⟨N₅, g, kept, hsteps, hinv₅, hgroups, hkept, hempty, hgid, hid₅, hrunning₅, hconns₅, hdistinct₅,
      hasked₅⟩ :=
    @obtain_group ι _ (N.afterSender i r) (c.probed ts) ts i r.1 hinv (Function.update_self ..) hdistinct₁
      hrunning (hactive.mpr hnone) hpending (by rw [htimeout₁]; exact htimeout) hmem (hopen _ hmem)
      (by rw [haddr, hid]; exact List.mem_append_right _ hasked) (by rw [hid]; exact hunknown)
      (by rw [haddr]; exact hadmits) D random
  rw [hid] at hgid
  -- and all links join it
  have hjoining : Joining N₅ i g r.1.conns := by
    refine ⟨hinv₅, hdistinct₅, hrunning₅, ?_, fun d hd => ⟨by rw [hconns₅]; exact hd, hopen d hd⟩,
      hdistinct₁.refs, fun d hd => by rw [hid₅]; exact hasked₅ d hd (hopen d hd), ?_, ?_⟩
    · rw [hgroups, hid₅]
      refine findGroupById_concat fun x hx => ?_
      rw [hgid]
      exact hrandom x (hkept.subset hx)
    · intro d hd x hx howns
      rw [hgroups] at hx
      rcases List.mem_append.mp hx with hx | hx
      · rw [hconns] at hd
        obtain ⟨e, he, rfl⟩ := List.mem_map.mp hd
        rw [(e.probed_frame ts).2.2] at howns
        exact absurd howns (hfree e he x (hkept.subset hx))
      · exact List.mem_singleton.mp hx
    · have hcount : newcomers g r.1.conns ≤ r.1.conns.length := List.countP_le_length
      have hlength : r.1.conns.length = (N.senders i).conns.length := by rw [hconns, List.length_map]
      rw [hempty, List.length_nil]
      omega
  obtain ⟨N', g', hsteps', hfound, hid', _, hserves, hconns'⟩ := hjoining.all D ts
  have hfinal : (N'.senders i).conns =
      ((N.senders i).conns.map (Sender.Conn.probed ts)).map (heardIn (r.1.conns.map Sender.Conn.ref) ts) := by
    rw [hconns', hconns₅, ← hconns]
  refine ⟨N.afterSender i r, N', step_own hlocal hstep, ?_, ?_, ?_, g', (findGroupById_eq_some hfound).1,
    (findGroupById_eq_some hfound).2, fun d hd => ⟨?_, ?_⟩⟩
  · have hlength : r.1.conns.length = (N.senders i).conns.length := by rw [hconns, List.length_map]
    rw [← hlength]
    exact hsteps.trans hsteps'
  · rw [hfinal]
    exact map_link_heardIn _ _ ts
  · rw [hid', hid₅, hgid]
  · rw [hfinal] at hd
    refine timedOut_heardIn (fun e he _ => ?_) hd
    rw [hconns, List.map_map]
    exact List.mem_map.mpr ⟨e, he, (e.probed_frame ts).1⟩
  · rw [hconns', hconns₅] at hd
    obtain ⟨e, he, rfl⟩ := List.mem_map.mp hd
    rw [(heardIn_frame _ ts e).2.2]
    exact hserves e he

/-- Two links at start-up. -/
theorem links_register_two :
    ∃ N₁ N', (network oneSender).step oneSender.start (.sender () (.housekeeping (pairEnv 100000))) N₁ ∧
      (network oneSender).StepsIf (Act.Delivery 100) N₁ 8 N' ∧
      (N'.senders ()).srtlaId = .ofHalves (fillHalf 1) (fillHalf 2) ∧
      ∃ g' ∈ N'.receiver.groups, g'.id = (N'.senders ()).srtlaId ∧
        ∀ d ∈ (N'.senders ()).conns, d.timedOut 100 = false ∧ serves g' d.addr = true := by
  have hnone : (oneSender.start.senders ()).NoneActive 100000 := by
    intro c hc
    rcases List.mem_pair.mp hc with rfl | rfl
    · exact Or.inr rfl
    · exact Or.inr rfl
  have hadmits : Admits oneSender.start.receiver (sampleAddr 2) ((100000 / 1000 : ℕ) : ℤ) :=
    ⟨by rw [AuthRateLimiter.isBlocked]; rfl, by decide, fun x hx => absurd hx List.not_mem_nil⟩
  have hhalf : (oneSender.start.senders ()).srtlaId.firstHalf = fillHalf 1 := SrtlaId.firstHalf_ofHalves _ _
  obtain ⟨N₁, N', hstep, hsteps, _, hid, g', hg', hgid, hlinks⟩ := @links_register Unit _ oneSender oneSender.start
    (openLink 1 srcB (sampleAddr 2)) () .init (pairEnv 100000) 100000 (openEnvs_addr _ _)
    (probing_pair (by decide) (by decide)) hnone (by decide) rfl List.mem_cons_self hadmits
    (fun _ _ x hx => absurd hx List.not_mem_nil) (by decide) (fillHalf 2)
    (fun x hx => absurd hx List.not_mem_nil)
  rw [hhalf] at hid
  exact ⟨N₁, N', hstep, hsteps, hid, g', hg', hgid, hlinks⟩

end Srtla.System
