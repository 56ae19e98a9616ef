import Srtla.Sender.Calls

/-!
# The bookkeeping of the sender (`src/sender.cpp:96-114`, `:343-380`, `:440-661`)

The globals of the sender refer to one another: `pending_reg2_conn` points into
the list of links, the set of descriptors for `select` holds those of the links,
and a link is found by its source address. Links come and go with a reload of
the file of source addresses, and their sockets are closed and opened again.

Results:
* `step_pending`: only an NGP makes a link wait for a REG2.
* `bookkeeping_consistent`: in every run in which `socket` returns descriptors
  that are not open, the globals are consistent in every state, and the first
  half of the id is the one chosen at start-up.
-/

namespace Srtla.Sender

open Lib

/-- The open descriptors: the listening socket, and those of the links that have one. -/
def openFds (listenfd : ℤ) (conns : List Conn) : List ℤ :=
  listenfd :: (conns.filter fun c => decide (0 ≤ c.fd)).map Conn.fd

/-- In the course of the calls, `socket` never returns a descriptor that is open
    when it is called. -/
def FreshSockets (listenfd : ℤ) : List LinkCall → List Conn → Prop
  | [], _ => True
  | k :: ks, conns =>
    (∀ ref sys, k = .link ref (.openSocket sys) → 0 ≤ sys.socket →
        sys.socket ∉ openFds listenfd conns) ∧
      FreshSockets listenfd ks (k.apply conns)

/-- The set `fds` is that of the open descriptors, and each of them belongs to
    the listening socket or to one link. -/
structure Watches (listenfd : ℤ) (fds : List ℤ) (conns : List Conn) : Prop where
  mem_iff : ∀ fd, fd ∈ fds ↔ fd ∈ openFds listenfd conns
  nodup : (openFds listenfd conns).Nodup

/-- The globals fit together. -/
structure State.Consistent (s : State) : Prop where
  /-- `pending_reg2_conn` is null or in the list. -/
  pending : ∀ ref, s.pendingReg2Conn = some ref → ref ∈ s.conns.map Conn.ref
  /-- No two links have the same source address. -/
  srcs : (s.conns.map Conn.src).Nodup
  watches : Watches s.listenfd s.activeFds s.conns

variable {s s' : State} {listenfd : ℤ} {fds : List ℤ} {conns conns' : List Conn} {c c' : Conn}

/-! ## Descriptors -/

theorem mem_openFds {fd : ℤ} :
    fd ∈ openFds listenfd conns ↔ fd = listenfd ∨ ∃ c ∈ conns, 0 ≤ c.fd ∧ c.fd = fd := by
  simp [openFds, and_assoc]

theorem openFds_congr (h : conns'.map Conn.fd = conns.map Conn.fd) :
    openFds listenfd conns' = openFds listenfd conns := by
  have hfilter : ∀ l : List Conn, (l.filter fun c => decide (0 ≤ c.fd)).map Conn.fd =
      (l.map Conn.fd).filter fun fd => decide (0 ≤ fd) := by
    intro l
    rw [List.filter_map]
    rfl
  rw [openFds, openFds, hfilter, hfilter, h]

/-- A link without a socket has no descriptor. -/
theorem openFds_closed {done : List Conn} (h : c.fd < 0) :
    openFds listenfd (done ++ c :: conns) = openFds listenfd (done ++ conns) := by
  rw [openFds, openFds, List.filter_append, List.filter_append,
    List.filter_cons_of_neg (by simpa using h)]

theorem openFds_perm {done : List Conn} (h : 0 ≤ c.fd) :
    (openFds listenfd (done ++ c :: conns)).Perm (c.fd :: openFds listenfd (done ++ conns)) := by
  rw [openFds, openFds, List.filter_append, List.filter_append,
    List.filter_cons_of_pos (by simpa using h), List.map_append, List.map_append, List.map_cons]
  exact (List.perm_middle.cons listenfd).trans (List.Perm.swap _ _ _)

/-- Two links do not share a descriptor. -/
theorem Watches.eq_of_fd_eq (h : Watches listenfd fds conns) (hc : c ∈ conns) (hc' : c' ∈ conns)
    (hfd : 0 ≤ c.fd) (heq : c'.fd = c.fd) : c' = c := by
  have hnodup := (List.nodup_cons.mp h.nodup).2
  refine List.inj_on_of_nodup_map hnodup ?_ ?_ heq
  · exact List.mem_filter.mpr ⟨hc', by rw [heq]; exact decide_eq_true hfd⟩
  · exact List.mem_filter.mpr ⟨hc, decide_eq_true hfd⟩

theorem Watches.ne_listenfd (h : Watches listenfd fds conns) (hc : c ∈ conns) (hfd : 0 ≤ c.fd) :
    c.fd ≠ listenfd := by
  intro heq
  refine (List.nodup_cons.mp h.nodup).1 (heq ▸ List.mem_map_of_mem ?_)
  exact List.mem_filter.mpr ⟨hc, decide_eq_true hfd⟩

theorem Watches.congr (h : Watches listenfd fds conns)
    (hfds : conns'.map Conn.fd = conns.map Conn.fd) : Watches listenfd fds conns' := by
  refine ⟨?_, ?_⟩
  · rw [openFds_congr hfds]
    exact h.mem_iff
  · rw [openFds_congr hfds]
    exact h.nodup

/-! ## Opening sockets -/

theorem openSocket_src (fds : List ℤ) (c : Conn) (sys : OpenEnv) :
    (openSocket fds c sys).2.2.src = c.src := by
  unfold openSocket
  dsimp only
  split_ifs <;> rfl

/-- `open_socket` on a link without a socket: the link gets the descriptor, or
    nothing changes. -/
theorem openSocket_of_closed (fds : List ℤ) (hc : c.fd < 0) (sys : OpenEnv) :
    (openSocket fds c sys).2 = (fds, c) ∨
      0 ≤ sys.socket ∧
        (openSocket fds c sys).2 = (sys.socket :: fds, { c with fd := sys.socket, addr := sys.addr }) := by
  have hopen : ¬ c.fd ≥ 0 := not_le.mpr hc
  unfold openSocket
  simp only [if_neg hopen]
  split_ifs with hsocket
  · exact Or.inl rfl
  · exact Or.inl rfl
  · refine Or.inr ⟨not_lt.mp hsocket, ?_⟩
    rw [addActiveFd, if_neg hsocket]

theorem Watches.openSocket {done : List Conn} (h : Watches listenfd fds (done ++ c :: conns))
    (hc : c.fd < 0) {sys : OpenEnv}
    (hfresh : 0 ≤ sys.socket → sys.socket ∉ openFds listenfd (done ++ c :: conns)) :
    Watches listenfd (Sender.openSocket fds c sys).2.1
      (done ++ (Sender.openSocket fds c sys).2.2 :: conns) := by
  rcases openSocket_of_closed fds hc sys with hsame | ⟨hfd, hopened⟩
  · rw [hsame]
    exact h
  · rw [hopened]
    dsimp only
    set opened : Conn := { c with fd := sys.socket, addr := sys.addr }
    have hperm : (openFds listenfd (done ++ opened :: conns)).Perm
        (sys.socket :: openFds listenfd (done ++ conns)) := openFds_perm hfd
    have hmem := h.mem_iff
    have hnodup := h.nodup
    rw [openFds_closed hc] at hfresh hmem hnodup
    refine ⟨fun fd => ?_, ?_⟩
    · rw [hperm.mem_iff, List.mem_cons, List.mem_cons, hmem]
    · exact hperm.nodup_iff.mpr (List.nodup_cons.mpr ⟨hfresh hfd, hnodup⟩)

/-- The calls for a link, in the middle of the loop over the links. -/
theorem freshSockets_link {done : List Conn} {ref : ℕ} {change : LinkChange} {ks : List LinkCall}
    (hnodup : ((done ++ c :: conns).map Conn.ref).Nodup) (href : ref = c.ref)
    (h : FreshSockets listenfd (.link ref change :: ks) (done ++ c :: conns)) :
    FreshSockets listenfd ks (done ++ change.apply c :: conns) := by
  have htail := h.2
  rw [href, LinkCall.apply, Keyed.modify_append_cons hnodup] at htail
  exact htail

theorem nodup_refs_replace {done : List Conn} (href : c'.ref = c.ref)
    (h : ((done ++ c :: conns).map Conn.ref).Nodup) : ((done ++ c' :: conns).map Conn.ref).Nodup := by
  rw [List.map_append, List.map_cons, href, ← List.map_cons, ← List.map_append]
  exact h

/-- The loop of `open_conns`. -/
theorem Watches.openConns (env : ℕ → OpenEnv) {done : List Conn}
    (hnodup : ((done ++ conns).map Conn.ref).Nodup) (hclosed : ∀ c ∈ conns, c.fd < 0)
    (hfresh : FreshSockets listenfd (conns.map fun c => .link c.ref (.openSocket (env c.ref)))
      (done ++ conns))
    (h : Watches listenfd fds (done ++ conns)) :
    Watches listenfd (Sender.openConns env fds conns).2.1
      (done ++ (Sender.openConns env fds conns).2.2) := by
  induction conns generalizing done fds with
  | nil => exact h
  | cons c conns ih =>
    set opened := (Sender.openSocket fds c (env c.ref)).2.2 with hopened
    have hstep : Watches listenfd (Sender.openSocket fds c (env c.ref)).2.1 (done ++ opened :: conns) :=
      h.openSocket (hclosed c List.mem_cons_self) (hfresh.1 c.ref (env c.ref) rfl)
    have hrest : FreshSockets listenfd (conns.map fun c => .link c.ref (.openSocket (env c.ref)))
        (done ++ opened :: conns) := by
      rw [hopened, openSocket_conn]
      exact freshSockets_link hnodup rfl hfresh
    have hrefs : ((done ++ opened :: conns).map Conn.ref).Nodup := by
      refine nodup_refs_replace ?_ hnodup
      rw [hopened, openSocket_conn]
      exact LinkChange.apply_ref (.openSocket (env c.ref)) c
    rw [← List.singleton_append, ← List.append_assoc] at hstep hrest hrefs
    have htail := ih hrefs (fun x hx => hclosed x (List.mem_cons_of_mem _ hx)) hrest hstep
    rw [List.append_assoc] at htail
    exact htail

/-! ## Housekeeping -/

theorem freshSockets_housekeep (s : State) (time : ℤ) (env : HousekeepingEnv) (fds : List ℤ)
    {done : List Conn} {ks : List LinkCall} (hnodup : ((done ++ c :: conns).map Conn.ref).Nodup)
    (h : FreshSockets listenfd (housekeepCalls time env c ++ ks) (done ++ c :: conns)) :
    FreshSockets listenfd ks (done ++ (housekeepConn s time env fds c).conn :: conns) := by
  rcases housekeepCalls_cases s time env fds c with ⟨hnone, hconn⟩ | ⟨change, hcalls, hconn⟩
  · rw [hnone] at h
    rw [hconn]
    exact h
  · rw [hcalls] at h
    rw [hconn]
    exact freshSockets_link hnodup rfl h

/-- One iteration of the loop over the links: a socket is opened, or the link
    keeps the one it has. -/
theorem housekeepConn_cases (s : State) (time : ℤ) (env : HousekeepingEnv) (fds : List ℤ) (c : Conn) :
    let p := housekeepConn s time env fds c
    c.fd < 0 ∧ p.fds = (openSocket fds c (env.opens c.ref)).2.1 ∧
        p.conn = (openSocket fds c (env.opens c.ref)).2.2 ∨
      0 ≤ c.fd ∧ p.fds = fds ∧ c.SameLink p.conn := by
  dsimp only
  unfold housekeepConn
  by_cases hclosed : c.fd < 0
  · rw [if_pos hclosed]
    exact Or.inl ⟨hclosed, rfl, rfl⟩
  · rw [if_neg hclosed]
    refine Or.inr ⟨not_lt.mp hclosed, ?_⟩
    by_cases hout : c.timedOut time = true
    · rw [if_pos hout]
      exact ⟨rfl, c.sameLink_reset⟩
    · rw [if_neg hout]
      exact ⟨rfl, .refl c⟩

theorem housekeepConn_src (s : State) (time : ℤ) (env : HousekeepingEnv) (fds : List ℤ) (c : Conn) :
    (housekeepConn s time env fds c).conn.src = c.src := by
  rcases housekeepConn_cases s time env fds c with ⟨_, _, hconn⟩ | ⟨_, _, hsame⟩
  · rw [hconn, openSocket_src]
  · exact hsame.src

theorem housekeepConn_ref (s : State) (time : ℤ) (env : HousekeepingEnv) (fds : List ℤ) (c : Conn) :
    (housekeepConn s time env fds c).conn.ref = c.ref := by
  rcases housekeepCalls_cases s time env fds c with ⟨_, hconn⟩ | ⟨change, _, hconn⟩
  · rw [hconn]
  · rw [hconn, change.apply_ref]

theorem Watches.housekeepConn (s : State) (time : ℤ) (env : HousekeepingEnv) {done : List Conn}
    {ks : List LinkCall} (hfresh : FreshSockets listenfd (housekeepCalls time env c ++ ks)
      (done ++ c :: conns))
    (h : Watches listenfd fds (done ++ c :: conns)) :
    Watches listenfd (Sender.housekeepConn s time env fds c).fds
      (done ++ (Sender.housekeepConn s time env fds c).conn :: conns) := by
  rcases housekeepConn_cases s time env fds c with ⟨hclosed, hfds, hconn⟩ | ⟨_, hfds, hsame⟩
  · have hcalls : housekeepCalls time env c = [.link c.ref (.openSocket (env.opens c.ref))] :=
      if_pos hclosed
    rw [hcalls] at hfresh
    rw [hfds, hconn]
    exact h.openSocket hclosed (hfresh.1 c.ref (env.opens c.ref) rfl)
  · rw [hfds]
    refine h.congr ?_
    rw [List.map_append, List.map_append, List.map_cons, List.map_cons, hsame.fd]

theorem Watches.housekeepLoop (s : State) (time : ℤ) (env : HousekeepingEnv) {done : List Conn}
    (hnodup : ((done ++ conns).map Conn.ref).Nodup)
    (hfresh : FreshSockets listenfd (conns.flatMap (housekeepCalls time env)) (done ++ conns))
    (h : Watches listenfd fds (done ++ conns)) :
    Watches listenfd (Sender.housekeepLoop s time env fds conns).1
      (done ++ (Sender.housekeepLoop s time env fds conns).2.1) := by
  induction conns generalizing done fds with
  | nil => exact h
  | cons c conns ih =>
    rw [List.flatMap_cons] at hfresh
    have hstep := h.housekeepConn s time env hfresh
    have hrest := freshSockets_housekeep s time env fds hnodup hfresh
    have hrefs := nodup_refs_replace (housekeepConn_ref s time env fds c) hnodup
    rw [← List.singleton_append, ← List.append_assoc] at hstep hrest hrefs
    have htail := ih hrefs hrest hstep
    rw [List.append_assoc] at htail
    exact htail

theorem housekeepLoop_map {β : Type*} {f : Conn → β} (s : State) (time : ℤ) (env : HousekeepingEnv)
    (hf : ∀ fds c, f (housekeepConn s time env fds c).conn = f c) (fds : List ℤ) (conns : List Conn) :
    (housekeepLoop s time env fds conns).2.1.map f = conns.map f := by
  induction conns generalizing fds with
  | nil => rfl
  | cons c conns ih =>
    unfold housekeepLoop
    dsimp only
    rw [List.map_cons, List.map_cons, ih, hf]

/-! ## Reloads -/

theorem connFindBySrc_eq_none {src : Block 4} (h : connFindBySrc conns src = none) :
    src ∉ conns.map Conn.src := by
  intro hmem
  obtain ⟨c, hc, hsrc⟩ := List.mem_map.mp hmem
  exact absurd hsrc.symm (by simpa using List.find?_eq_none.mp h c hc)

theorem State.Distinct.sameLinks_putConn (h : s.Distinct) (hc : c ∈ s.conns) (hlink : c.SameLink c') :
    SameLinks s.conns (s.putConn c').conns := by
  show List.Forall₂ Conn.SameLink s.conns (Keyed.put Conn.ref c' s.conns)
  rw [Keyed.put, List.forall₂_map_right_iff, List.forall₂_same]
  intro x hx
  split_ifs with hkey
  · rw [Keyed.eq_of_key_eq h.refs hx hc (hkey.trans hlink.ref)]
    exact hlink
  · exact .refl x

theorem SameLinks.map_fd (h : SameLinks conns conns') : conns'.map Conn.fd = conns.map Conn.fd := by
  induction h with
  | nil => rfl
  | cons h _ ih => rw [List.map_cons, List.map_cons, h.fd, ih]

theorem SameLinks.map_src (h : SameLinks conns conns') : conns'.map Conn.src = conns.map Conn.src := by
  induction h with
  | nil => rfl
  | cons h _ ih => rw [List.map_cons, List.map_cons, h.src, ih]

/-- The links are rewritten in place, and no pointer to a link outside the list
    is stored. -/
theorem State.Consistent.sameLinks (h : s.Consistent) (hlinks : SameLinks s.conns s'.conns)
    (hfds : s'.activeFds = s.activeFds) (hlisten : s'.listenfd = s.listenfd)
    (hpending : ∀ ref, s'.pendingReg2Conn = some ref →
      s.pendingReg2Conn = some ref ∨ ref ∈ s.conns.map Conn.ref) : s'.Consistent where
  pending := by
    intro ref href
    rw [hlinks.map_ref]
    rcases hpending ref href with hsame | hmem
    · exact h.pending ref hsame
    · exact hmem
  srcs := by
    rw [hlinks.map_src]
    exact h.srcs
  watches := by
    rw [hfds, hlisten]
    exact h.watches.congr hlinks.map_fd

theorem nodup_srcs_setupLine (hd : s.Distinct) (h : (s.conns.map Conn.src).Nodup)
    (line : Option (Block 4)) : ((s.setupLine line).conns.map Conn.src).Nodup := by
  unfold State.setupLine
  cases line with
  | none => exact h
  | some src =>
    dsimp only
    cases hfind : connFindBySrc s.conns src with
    | none => exact List.nodup_cons.mpr ⟨connFindBySrc_eq_none hfind, h⟩
    | some c =>
      have hc : c ∈ s.conns := List.mem_of_find?_eq_some hfind
      have hlink : c.SameLink { c with removed := false } := ⟨rfl, rfl, rfl, rfl⟩
      rw [(hd.sameLinks_putConn hc hlink).map_src]
      exact h

theorem State.Consistent.setupLine (hd : s.Distinct) (h : s.Consistent) (line : Option (Block 4)) :
    (s.setupLine line).Consistent := by
  have hsrcs := nodup_srcs_setupLine hd h.srcs line
  unfold State.setupLine at hsrcs ⊢
  cases line with
  | none => exact h
  | some src =>
    dsimp only at hsrcs ⊢
    cases hfind : connFindBySrc s.conns src with
    | none =>
      rw [hfind] at hsrcs
      refine ⟨?_, hsrcs, ?_⟩
      · intro ref href
        exact List.mem_cons_of_mem _ (h.pending ref href)
      · have hclosed : openFds s.listenfd (Conn.create s.nextRef src :: s.conns) =
            openFds s.listenfd s.conns := @openFds_closed _ _ _ [] (show (-1 : ℤ) < 0 by decide)
        refine ⟨?_, ?_⟩
        · rw [hclosed]
          exact h.watches.mem_iff
        · rw [hclosed]
          exact h.watches.nodup
    | some c =>
      have hc : c ∈ s.conns := List.mem_of_find?_eq_some hfind
      exact h.sameLinks (hd.sameLinks_putConn hc ⟨rfl, rfl, rfl, rfl⟩) rfl rfl fun ref => Or.inl

theorem State.Consistent.setupConns (hd : s.Distinct) (h : s.Consistent)
    (lines : List (Option (Block 4))) : (s.setupConns lines).Consistent := by
  induction lines generalizing s with
  | nil => exact h
  | cons line lines ih => exact ih (hd.setupLine line) (h.setupLine hd line)

/-- The descriptors that the removal loop leaves are those of the links it keeps. -/
theorem mem_removeLoop_activeFds (s : State) (conns : List Conn) (fd : ℤ) :
    fd ∈ (removeLoop s conns).activeFds ↔
      fd ∈ s.activeFds ∧ ∀ c ∈ conns, c.removed = true → 0 ≤ c.fd → c.fd ≠ fd := by
  induction conns generalizing s with
  | nil => simp [removeLoop]
  | cons c conns ih =>
    unfold removeLoop
    by_cases hremoved : c.removed = true
    · rw [if_pos hremoved, ih, List.forall_mem_cons]
      dsimp only
      unfold removeActiveFd
      split_ifs with hfd
      · simp [hremoved, not_le.mpr hfd]
      · rw [List.mem_filter, decide_eq_true_eq, and_assoc]
        refine and_congr_right fun _ => and_congr_left fun _ => ?_
        simp [hremoved, not_lt.mp hfd, eq_comm]
    · rw [if_neg hremoved]
      dsimp only
      rw [ih, List.forall_mem_cons]
      simp [hremoved]

/-- The removal loop forgets the pending link iff it takes it out. -/
theorem removeLoop_pending_iff (s : State) (conns : List Conn) {ref : ℕ} :
    (removeLoop s conns).pendingReg2Conn = some ref ↔
      s.pendingReg2Conn = some ref ∧ ∀ c ∈ conns, c.removed = true → c.ref ≠ ref := by
  induction conns generalizing s with
  | nil => simp [removeLoop]
  | cons c conns ih =>
    unfold removeLoop
    rw [List.forall_mem_cons]
    by_cases hremoved : c.removed = true
    · rw [if_pos hremoved, ih, ← and_assoc]
      refine and_congr_left fun _ => ?_
      dsimp only
      by_cases hsame : s.pendingReg2Conn = some c.ref
      · rw [if_pos hsame, hsame]
        simp [hremoved]
      · rw [if_neg hsame]
        refine ⟨fun h => ⟨h, fun _ href => hsame (href ▸ h)⟩, And.left⟩
    · rw [if_neg hremoved]
      refine (ih s).trans (and_congr_right fun _ => ?_)
      exact (and_iff_right fun h => absurd h hremoved).symm

/-- The removal loop closes the descriptors of the links that it takes out, and
    forgets them. -/
theorem State.Consistent.removeLoop (h : s.Consistent) : (Sender.removeLoop s s.conns).Consistent where
  pending := by
    intro ref href
    obtain ⟨hpending, hkept⟩ := (removeLoop_pending_iff s s.conns).mp href
    obtain ⟨c, hc, rfl⟩ := List.mem_map.mp (h.pending ref hpending)
    rw [removeLoop_conns]
    refine List.mem_map_of_mem (List.mem_filter.mpr ⟨hc, ?_⟩)
    rw [Bool.not_eq_true']
    exact Bool.eq_false_iff.mpr fun hremoved => hkept c hc hremoved rfl
  srcs := by
    rw [removeLoop_conns]
    exact (List.filter_sublist.map Conn.src).nodup h.srcs
  watches := by
    have hlisten : (Sender.removeLoop s s.conns).listenfd = s.listenfd := by rw [removeLoop_eq]
    rw [removeLoop_conns, hlisten]
    refine ⟨fun fd => ?_, ?_⟩
    · rw [mem_removeLoop_activeFds, h.watches.mem_iff, mem_openFds, mem_openFds]
      constructor
      · rintro ⟨rfl | ⟨c, hc, hfd, rfl⟩, hkept⟩
        · exact Or.inl rfl
        · refine Or.inr ⟨c, List.mem_filter.mpr ⟨hc, ?_⟩, hfd, rfl⟩
          rw [Bool.not_eq_true']
          exact Bool.eq_false_iff.mpr fun hremoved => hkept c hc hremoved hfd rfl
      · rintro (rfl | ⟨c, hc, hfd, rfl⟩)
        · exact ⟨Or.inl rfl, fun c hc _ hfd => h.watches.ne_listenfd hc hfd⟩
        · obtain ⟨hc, hstays⟩ := List.mem_filter.mp hc
          refine ⟨Or.inr ⟨c, hc, hfd, rfl⟩, fun x hx hremoved _ heq => ?_⟩
          rw [← h.watches.eq_of_fd_eq hc hx hfd heq, hremoved] at hstays
          cases hstays
    · exact ((List.filter_sublist.filter _).map Conn.fd).cons_cons _ |>.nodup h.watches.nodup

theorem State.Consistent.updateConns (hd : s.Distinct) (h : s.Consistent)
    (file : Option (List (Option (Block 4)))) : (s.updateConns file).Consistent := by
  have hmark : State.Consistent { s with conns := LinkCall.mark.apply s.conns } := by
    refine h.sameLinks ?_ rfl rfl fun ref => Or.inl
    show SameLinks s.conns (s.conns.map fun c => { c with removed := true })
    rw [SameLinks, List.forall₂_map_right_iff, List.forall₂_same]
    exact fun c _ => ⟨rfl, rfl, rfl, rfl⟩
  unfold State.updateConns
  cases file with
  | none => exact ⟨hmark.pending, hmark.srcs, hmark.watches⟩
  | some lines => exact (hmark.setupConns hd.mark lines).removeLoop

/-! ## Every call -/

variable {op : Op} {r : State × List Effect}

theorem handleSrtData_consistent (hd : s.Distinct) (h : s.Consistent) (env : SrtDataEnv) :
    (handleSrtData s env).1.Consistent := by
  unfold handleSrtData
  dsimp only
  cases hselect : selectConn s.conns env.seconds with
  | none => exact ⟨h.pending, h.srcs, h.watches⟩
  | some c =>
    obtain ⟨x, hx, hsame⟩ := selectConn_mem hselect
    refine h.sameLinks (hd.sameLinks_putConn hx (hsame.trans ?_)) rfl rfl fun ref => Or.inl
    split_ifs
    all_goals exact ⟨rfl, rfl, rfl, rfl⟩

theorem onRegNgp_consistent (h : s.Consistent) (hc : c ∈ s.conns) (ts : ℤ) (ret : ℕ → ℤ) :
    (onRegNgp s c ts ret).1.Consistent := by
  unfold onRegNgp
  dsimp only
  split_ifs
  · refine h.sameLinks (SameLinks.refl _) rfl rfl fun ref href => Or.inr ?_
    rw [← Option.some.inj href]
    exact List.mem_map_of_mem hc
  · exact h
  · exact h

theorem onReg2_consistent (h : s.Consistent) (buf : Mem) (ts : ℤ) (ret : ℕ → ℤ) :
    (onReg2 s c buf ts ret).1.Consistent := by
  unfold onReg2
  dsimp only
  split_ifs
  · exact h
  · exact h.sameLinks (SameLinks.refl _) rfl rfl fun ref href => absurd href (by simp)
  · exact h

theorem dispatch_consistent {buf : Mem} {n : ℤ} {fuel : ℕ} (h : s.Consistent)
    (hr : dispatch s buf n fuel = some r) : r.1.Consistent := by
  have hframe : r.1.activeFds = s.activeFds ∧ r.1.listenfd = s.listenfd ∧
      r.1.pendingReg2Conn = s.pendingReg2Conn := by
    unfold dispatch at hr
    dsimp only at hr
    split_ifs at hr
    · obtain rfl := Option.some.inj hr
      exact ⟨rfl, rfl, rfl⟩
    · obtain ⟨ids, _, rfl⟩ := Option.map_eq_some_iff.mp hr
      exact ⟨rfl, rfl, rfl⟩
    all_goals
      obtain rfl := Option.some.inj hr
      exact ⟨rfl, rfl, rfl⟩
  exact h.sameLinks (sameLinks_dispatch hr) hframe.1 hframe.2.1 fun ref href =>
    Or.inl (hframe.2.2 ▸ href)

theorem checkFailed_bookkeeping (s : State) (ms : ℕ) :
    (s.checkFailed ms).activeFds = s.activeFds ∧ (s.checkFailed ms).listenfd = s.listenfd ∧
      (s.checkFailed ms).pendingReg2Conn = s.pendingReg2Conn := by
  unfold State.checkFailed
  dsimp only
  split_ifs
  all_goals first
    | exact ⟨rfl, rfl, rfl⟩
    | split <;> exact ⟨rfl, rfl, rfl⟩

theorem State.Consistent.expirePending (h : s.Consistent) (time : ℤ) :
    (s.expirePending time).Consistent := by
  unfold State.expirePending
  split_ifs
  · exact h.sameLinks (SameLinks.refl _) rfl rfl fun ref href => absurd href (by simp)
  · exact h

theorem connectionHousekeeping_consistent (hd : s.Distinct) (h : s.Consistent) (env : HousekeepingEnv)
    (hfresh : FreshSockets s.listenfd (housekeepingCalls s env) s.conns) :
    (connectionHousekeeping s env).1.Consistent := by
  unfold connectionHousekeeping
  unfold housekeepingCalls at hfresh
  cases hms : env.ms with
  | none => exact h
  | some ms =>
    rw [hms] at hfresh
    dsimp only at hfresh ⊢
    split_ifs at hfresh ⊢ with hearly
    · exact h
    · obtain ⟨_, hconns, _, _⟩ := expirePending_frame s (ms / 1000 : ℕ)
      have hlisten : (s.expirePending (ms / 1000 : ℕ)).listenfd = s.listenfd := by
        unfold State.expirePending
        split_ifs <;> rfl
      have hexp := h.expirePending (ms / 1000 : ℕ)
      set s₁ := s.expirePending (ms / 1000 : ℕ)
      have hloop : Watches s₁.listenfd (housekeepLoop s₁ (ms / 1000 : ℕ) env s₁.activeFds s₁.conns).1
          ([] ++ (housekeepLoop s₁ (ms / 1000 : ℕ) env s₁.activeFds s₁.conns).2.1) := by
        refine Watches.housekeepLoop s₁ (ms / 1000 : ℕ) env ?_ ?_ hexp.watches
        · rw [hconns]
          exact hd.refs
        · rw [hlisten, hconns]
          exact hfresh
      refine State.Consistent.sameLinks (s := { s₁ with
        activeFds := (housekeepLoop s₁ (ms / 1000 : ℕ) env s₁.activeFds s₁.conns).1
        conns := (housekeepLoop s₁ (ms / 1000 : ℕ) env s₁.activeFds s₁.conns).2.1
        activeConnections := (housekeepLoop s₁ (ms / 1000 : ℕ) env s₁.activeFds s₁.conns).2.2.1 })
        ⟨?_, ?_, hloop⟩ ?_ ?_ ?_ ?_
      · intro ref href
        rw [housekeepLoop_map s₁ _ env fun fds c => housekeepConn_ref s₁ _ env fds c]
        exact hexp.pending ref href
      · rw [housekeepLoop_map s₁ _ env fun fds c => housekeepConn_src s₁ _ env fds c]
        exact hexp.srcs
      · dsimp only
        rw [(checkFailed_frame _ ms).2.1]
        exact SameLinks.refl _
      · exact (checkFailed_bookkeeping _ ms).1
      · exact (checkFailed_bookkeeping _ ms).2.1
      · intro ref href
        exact Or.inl ((checkFailed_bookkeeping _ ms).2.2 ▸ href)

/-- A call keeps the globals consistent. -/
theorem State.Consistent.step (hd : s.Distinct) (h : s.Consistent)
    (hfresh : FreshSockets s.listenfd (s.calls op) s.conns) (hstep : Sender.step s op = some r) :
    r.1.Consistent := by
  cases step_cases hstep with
  | srtData env => exact handleSrtData_consistent hd h env
  | empty _ => exact h
  | ngp hc _ _ => exact onRegNgp_consistent h hc _ _
  | reg2 _ _ _ _ => exact onReg2_consistent h _ _ _
  | @dispatch c buf n ts ret fuel r hc _ heq =>
    have hlink : c.SameLink { c with lastRcvd := ts } := ⟨rfl, rfl, rfl, rfl⟩
    have hput := h.sameLinks (hd.sameLinks_putConn hc hlink) rfl rfl fun ref => Or.inl
    exact dispatch_consistent hput heq
  | updateConns file => exact h.updateConns hd file
  | housekeeping env => exact connectionHousekeeping_consistent hd h env hfresh

/-! ## Start-up -/

theorem freshSockets_append {ks ks' : List LinkCall} :
    FreshSockets listenfd (ks ++ ks') conns ↔
      FreshSockets listenfd ks conns ∧ FreshSockets listenfd ks' (applyCalls ks conns) := by
  induction ks generalizing conns with
  | nil => exact ⟨fun h => ⟨trivial, h⟩, fun h => h.2⟩
  | cons k ks ih =>
    rw [List.cons_append, FreshSockets, FreshSockets, ih, and_assoc]
    rfl

/-- The links have no sockets before `open_conns`. -/
theorem setupConns_closed (lines : List (Option (Block 4))) (h : ∀ c ∈ s.conns, c.fd < 0) :
    ∀ c ∈ (s.setupConns lines).conns, c.fd < 0 := by
  induction lines generalizing s with
  | nil => exact h
  | cons line lines ih =>
    refine ih ?_
    unfold State.setupLine
    cases line with
    | none => exact h
    | some src =>
      dsimp only
      cases hfind : connFindBySrc s.conns src with
      | none => exact List.forall_mem_cons.mpr ⟨show (-1 : ℤ) < 0 by decide, h⟩
      | some c =>
        intro x hx
        rcases Keyed.mem_put.mp hx with ⟨rfl, _⟩ | ⟨hx, _⟩
        · exact h c (List.mem_of_find?_eq_some hfind)
        · exact h x hx

theorem nodup_srcs_setupConns (hd : s.Distinct) (h : (s.conns.map Conn.src).Nodup)
    (lines : List (Option (Block 4))) : ((s.setupConns lines).conns.map Conn.src).Nodup := by
  induction lines generalizing s with
  | nil => exact h
  | cons line lines ih => exact ih (hd.setupLine line) (nodup_srcs_setupLine hd h line)

theorem openConns_map_src (env : ℕ → OpenEnv) (fds : List ℤ) (conns : List Conn) :
    (openConns env fds conns).2.2.map Conn.src = conns.map Conn.src := by
  induction conns generalizing fds with
  | nil => rfl
  | cons c conns ih =>
    unfold openConns
    dsimp only
    rw [List.map_cons, List.map_cons, ih, openSocket_src]

theorem setupConns_pending (s : State) (lines : List (Option (Block 4))) :
    (s.setupConns lines).pendingReg2Conn = s.pendingReg2Conn := by
  induction lines generalizing s with
  | nil => rfl
  | cons line lines ih =>
    refine (ih (s.setupLine line)).trans ?_
    unfold State.setupLine
    cases line with
    | none => rfl
    | some src =>
      dsimp only
      split <;> rfl

/-- `main` leaves the globals consistent. -/
theorem start_consistent {cfg : Config} (h : start cfg = some s)
    (hfresh : FreshSockets cfg.listenfd (startCalls cfg) []) : s.Consistent := by
  have hd : (State.zero.setupConns cfg.lines).Distinct := distinct_zero.setupConns cfg.lines
  have hclosed : ∀ c ∈ (State.zero.setupConns cfg.lines).conns, c.fd < 0 :=
    setupConns_closed cfg.lines fun c hc => absurd hc List.not_mem_nil
  have hsrcs := nodup_srcs_setupConns distinct_zero List.nodup_nil cfg.lines
  have hpending := setupConns_pending State.zero cfg.lines
  have hsetup : applyCalls (setupCalls State.zero cfg.lines) [] =
      (State.zero.setupConns cfg.lines).conns := (setupCalls_spec distinct_zero cfg.lines).symm
  rw [startCalls, freshSockets_append, hsetup] at hfresh
  -- before `open_conns` only the listening socket is open
  have honly : openFds cfg.listenfd (State.zero.setupConns cfg.lines).conns = [cfg.listenfd] := by
    rw [openFds, List.filter_eq_nil_iff.mpr fun c hc => by simpa using hclosed c hc]
    rfl
  unfold start at h
  dsimp only at h
  split_ifs at h with hnone hlisten hopened
  have hwatch : Watches cfg.listenfd (addActiveFd [] cfg.listenfd)
      ([] ++ (State.zero.setupConns cfg.lines).conns) := by
    have hfd : ¬ cfg.listenfd < 0 := fun hneg => hlisten (Or.inl hneg)
    refine ⟨fun fd => ?_, ?_⟩
    · rw [List.nil_append, honly, addActiveFd, if_neg hfd]
    · rw [List.nil_append, honly]
      exact List.nodup_singleton _
  have hopen := @Watches.openConns _ _ _ cfg.opens [] hd.refs hclosed hfresh.2 hwatch
  cases haddrs : cfg.addrs with
  | nil =>
    rw [haddrs] at h
    cases h
  | cons addr rest =>
    rw [haddrs] at h
    obtain rfl := Option.some.inj h
    refine ⟨fun ref href => ?_, ?_, hopen⟩
    · rw [hpending] at href
      cases href
    · rw [openConns_map_src]
      exact hsrcs

/-! ## Runs -/

/-- The sender acts on an NGP: no link is active, no REG1 waits for its REG2, and the
    time for the last registration is over (lines 349-350). -/
def State.ActsOnNgp (s : State) (buf : Mem) (n ts : ℤ) : Prop :=
  getSrtType buf n = srtlaTypeRegNgp ∧ s.activeConnections = 0 ∧ s.pendingReg2Conn = none ∧
    s.pendingRegTimeout < ts

/-- A reload makes no link wait. -/
theorem updateConns_pending {file : Option (List (Option (Block 4)))} {ref : ℕ}
    (h : (s.updateConns file).pendingReg2Conn = some ref) : s.pendingReg2Conn = some ref := by
  unfold State.updateConns at h
  cases file with
  | none => exact h
  | some lines =>
    dsimp only at h
    rw [removeLoop_pending_iff, setupConns_pending] at h
    exact h.1

/-- Housekeeping makes no link wait. -/
theorem connectionHousekeeping_pending {env : HousekeepingEnv} {ref : ℕ}
    (h : (connectionHousekeeping s env).1.pendingReg2Conn = some ref) : s.pendingReg2Conn = some ref := by
  unfold connectionHousekeeping at h
  split at h
  · exact h
  · split_ifs at h
    · exact h
    · dsimp only at h
      rw [(checkFailed_bookkeeping _ _).2.2] at h
      dsimp only [State.expirePending] at h
      split_ifs at h
      exact h

/-- **Only an NGP starts a registration.** A link that waits for its REG2 after a
    step did so before it, or the sender has acted on an NGP. The id is the same. -/
theorem step_pending (h : step s op = some r) {ref : ℕ} (hp : r.1.pendingReg2Conn = some ref) :
    r.1.srtlaId = s.srtlaId ∧ (s.pendingReg2Conn = some ref ∨
      ∃ buf n ts ret fuel, op = .srtlaData ref buf n ts ret fuel ∧ s.ActsOnNgp buf n ts) := by
  cases step_cases h with
  | srtData env =>
    refine ⟨handleSrtData_srtlaId s env, Or.inl (Eq.trans ?_ hp)⟩
    unfold handleSrtData
    dsimp only
    split <;> rfl
  | empty => exact ⟨rfl, Or.inl hp⟩
  | @ngp c buf n ts ret fuel _ _ htype =>
    refine ⟨(onRegNgp_frame s c ts ret).1, ?_⟩
    unfold onRegNgp at hp
    dsimp only at hp
    split_ifs at hp with hguard
    · cases hp
      exact Or.inr ⟨buf, n, ts, ret, fuel, rfl, htype, hguard⟩
    · exact Or.inl hp
    · exact Or.inl hp
  | reg2 =>
    unfold onReg2 at hp ⊢
    dsimp only at hp ⊢
    split_ifs at hp ⊢
    · exact ⟨rfl, Or.inl hp⟩
    · exact ⟨rfl, Or.inl hp⟩
  | dispatch _ _ heq =>
    rw [dispatch_eq heq] at hp ⊢
    exact ⟨rfl, Or.inl hp⟩
  | updateConns file => exact ⟨(updateConns_frame s file).1, Or.inl (updateConns_pending hp)⟩
  | housekeeping env =>
    exact ⟨connectionHousekeeping_srtlaId s env, Or.inl (connectionHousekeeping_pending hp)⟩

theorem step_firstHalf (h : step s op = some r) : r.1.srtlaId.firstHalf = s.srtlaId.firstHalf := by
  rcases step_srtlaId h with hsame | ⟨ref, buf, n, ts, ret, fuel, _, hadopts, hid⟩
  · rw [hsame]
  · rw [hid, SrtlaId.firstHalf_readBlock, hadopts.2.2.2]

/-- **The bookkeeping stays consistent.** In every state that a run reaches,
    `pending_reg2_conn` is null or points into the list, no two links have the same
    source address, the set of descriptors for `select` is the listening socket and
    the sockets of the links, each of one link only, and the first half of the id is
    the one chosen at start-up. -/
theorem bookkeeping_consistent {cfg : Config} {s₀ : State} (h₀ : start cfg = some s₀)
    (hfresh : FreshSockets cfg.listenfd (startCalls cfg) [])
    (h : (sender s₀).ReachableIf (fun s op => FreshSockets s.listenfd (s.calls op) s.conns) s) :
    s.Consistent ∧ s.srtlaId.firstHalf = s₀.srtlaId.firstHalf := by
  have hinv : s.Distinct ∧ s.Consistent ∧ s.srtlaId.firstHalf = s₀.srtlaId.firstHalf := by
    refine Lts.reachableIf_invariant
      (I := fun s => s.Distinct ∧ s.Consistent ∧ s.srtlaId.firstHalf = s₀.srtlaId.firstHalf)
      ⟨(start_calls h₀).2, start_consistent h₀ hfresh, rfl⟩ ?_ h
    rintro s op s' ⟨hd, hs, hid⟩ hcond ⟨effects, hstep⟩
    exact ⟨hd.step hstep, hs.step hd hcond hstep, (step_firstHalf hstep).trans hid⟩
  exact hinv.2

/-- A reload opens no socket. -/
theorem freshSockets_reload (s : State) (file : Option (List (Option (Block 4)))) :
    FreshSockets listenfd (s.calls (.updateConns file)) conns := by
  have hnone : ∀ ks : List LinkCall, (∀ k ∈ ks, ∀ ref sys, k ≠ .link ref (.openSocket sys)) →
      ∀ conns, FreshSockets listenfd ks conns := by
    intro ks
    induction ks with
    | nil => exact fun _ _ => trivial
    | cons k ks ih =>
      intro hks conns
      refine ⟨fun ref sys hk => absurd hk (hks k List.mem_cons_self ref sys), ih ?_ _⟩
      exact fun k hk => hks k (List.mem_cons_of_mem _ hk)
  refine hnone _ (fun k hk ref sys => ?_) conns
  cases made_of_mem_calls hk with
  | mark | sweep => exact nofun
  | setup hmem =>
    rcases setupCalls_cases hmem with ⟨_, _, rfl⟩ | ⟨_, rfl⟩
    · exact nofun
    · exact nofun

/-- A sender with one link, after a reload that replaces its source address. -/
theorem bookkeeping_consistent_reload :
    ∃ s₀, start oneLink = some s₀ ∧ FreshSockets 3 (startCalls oneLink) [] ∧
      step s₀ (.updateConns (some [some ⟨[10, 0, 0, 1], rfl⟩])) =
        some (s₀.updateConns (some [some ⟨[10, 0, 0, 1], rfl⟩]), []) ∧
      (s₀.updateConns (some [some ⟨[10, 0, 0, 1], rfl⟩])).Consistent := by
  obtain ⟨s₀, h₀, _, hexited⟩ := start_oneLink
  have hfresh : FreshSockets 3 (startCalls oneLink) [] := by
    refine ⟨nofun, ?_, trivial⟩
    rintro ref sys hk -
    cases hk
    decide
  have hstep : step s₀ (.updateConns (some [some ⟨[10, 0, 0, 1], rfl⟩])) =
      some (s₀.updateConns (some [some ⟨[10, 0, 0, 1], rfl⟩]), []) := by
    rw [step, hexited, if_neg Bool.false_ne_true]
  refine ⟨s₀, h₀, hfresh, hstep, ?_⟩
  exact (bookkeeping_consistent h₀ hfresh (.step .init (freshSockets_reload s₀ _) ⟨[], hstep⟩)).1

end Srtla.Sender
