import Srtla.Receiver.Lifetime
import Srtla.Sender.Bookkeeping
import Srtla.System.Bonding

/-!
# One sender and its groups

The sender asks for a new group when a link is told that its id is unknown
(NGP) and three conditions hold: no link is active, no REG1 is waiting for its
REG2, and the last registration was started more than four seconds ago. They
say nothing about the receiver: an NGP can be late, and REG3s can be lost. The
sender then obtains a second group while the receiver has a link of it in the
first one.

* `sender_in_two_groups`: a run that ends with the two links of one sender in two
  groups.
* `sender_in_one_group`: no such state is reached by a run in which ids are
  adopted and registrations arrive in order (`Orderly`).
* `Current.orderly`: a run is orderly if each NGP that passes the three conditions
  comes when the receiver has no group with the sender's id.
-/

namespace Srtla.System

open Lib Receiver

/-- Two of these addresses are connections of two groups. -/
def Split (links : Set SockaddrStorage) (R : Receiver.State) : Prop :=
  ∃ g ∈ R.groups, ∃ g' ∈ R.groups, g.ref ≠ g'.ref ∧
    ∃ c ∈ g.conns, ∃ c' ∈ g'.conns, c.addr ∈ links ∧ c'.addr ∈ links ∧
      addressesEqual c.addr c'.addr = false

/-- A REG2 arrives at the receiver only with the id the sender has, or with an id
    of no group. A REG2 makes the sender adopt its id only when the connections the
    receiver has, if any, are in the group with that id. -/
def Orderly (N : Net Unit) : Act Unit → Prop
  | .receive d _ _ =>
    isSrtlaReg2 (mem (d.2.take mtu)) (d.2.take mtu).length = true →
      readBlock (mem (d.2.take mtu)) 2 256 = (N.senders ()).srtlaId ∨
        findGroupById N.receiver.groups (readBlock (mem (d.2.take mtu)) 2 256) = none
  | .deliver _ ref d m _ _ _ =>
    (N.senders ()).Adopts ref m (received d.2) →
      ∀ g ∈ N.receiver.groups, g.conns ≠ [] →
        findGroupById N.receiver.groups (readBlock m 2 256) = some g
  | _ => True

/-! ## Orderly runs -/

/-- The receiver has connections in one group only, the one with the sender's id. -/
structure Together (N : Net Unit) : Prop where
  inv : Inv N.receiver
  one : ∀ g ∈ N.receiver.groups, g.conns ≠ [] →
    findGroupById N.receiver.groups (N.senders ()).srtlaId = some g

variable {D : Deployment Unit} {N : Net Unit}

theorem together_start (D : Deployment Unit) : Together D.start :=
  ⟨inv_init, fun _ hg => absurd hg List.not_mem_nil⟩

theorem Together.afterReceiver (h : Together N) {op : Receiver.Op}
    (hop : ∀ buf addr ts env, op = .packet buf addr ts env →
      isSrtlaReg2 (mem buf) buf.length = true →
        readBlock (mem buf) 2 256 = (N.senders ()).srtlaId ∨
          findGroupById N.receiver.groups (readBlock (mem buf) 2 256) = none) :
    Together (N.afterReceiver op) := by
  have hstep := step_regStep h.inv op
  refine ⟨hstep.inv h.inv, fun g' hg' hne => ?_⟩
  obtain ⟨c', hc'⟩ := List.exists_mem_of_ne_nil _ hne
  cases step_origin h.inv op hg' with
  | @old g hg href _ _ _ hconns =>
    refine hstep.find_id h.inv ?_ hg' href
    -- a connection of `g'` was in `g`, or it has joined with the sender's id
    cases hconns c' hc' with
    | old hc _ => exact h.one g hg (List.ne_nil_of_mem hc)
    | joined hinput hreg2 hfound _ =>
      rcases hop _ _ _ _ hinput hreg2 with hid | hnone
      · rw [hid] at hfound
        exact hfound
      · rw [hnone] at hfound
        cases hfound
  | created _ _ heq =>
    rw [heq] at hne
    exact absurd rfl hne

theorem Together.afterSender (h : Together N) {op : Sender.Op}
    {r : Sender.State × List Sender.Effect} (hstep : Sender.step (N.senders ()) op = some r)
    (hop : ∀ ref m n ts ret fuel, op = .srtlaData ref m n ts ret fuel →
      (N.senders ()).Adopts ref m n → ∀ g ∈ N.receiver.groups, g.conns ≠ [] →
        findGroupById N.receiver.groups (readBlock m 2 256) = some g) :
    Together (N.afterSender () r) := by
  have hsender : (N.afterSender () r).senders () = r.1 := by simp [Net.afterSender]
  refine ⟨h.inv, fun g hg hne => ?_⟩
  rw [hsender]
  rcases Sender.step_srtlaId hstep with hid | ⟨ref, m, n, ts, ret, fuel, heq, hadopts, hid⟩
  · rw [hid]
    exact h.one g hg hne
  · rw [hid]
    exact hop ref m n ts ret fuel heq hadopts g hg hne

theorem Together.step {N' : Net Unit} {act : Act Unit} (h : Together N) (horderly : Orderly N act)
    (hstep : (network D).step N act N') : Together N' := by
  obtain ⟨he, hnext⟩ := hstep
  cases act with
  | receive d ts env =>
    rw [← Option.some.inj hnext]
    refine h.afterReceiver ?_
    rintro _ _ _ _ ⟨⟩
    exact horderly
  | receiver op =>
    rw [← Option.some.inj hnext]
    refine h.afterReceiver ?_
    rintro _ _ _ _ rfl
    exact he.elim
  | deliver i ref d m ts ret fuel =>
    obtain ⟨r, hr, rfl⟩ := Option.map_eq_some_iff.mp hnext
    refine h.afterSender hr ?_
    rintro _ _ _ _ _ _ ⟨⟩
    exact horderly
  | sender i op =>
    obtain ⟨r, hr, rfl⟩ := Option.map_eq_some_iff.mp hnext
    refine h.afterSender hr ?_
    rintro _ _ _ _ _ _ rfl
    exact he.elim

theorem reachable_together (hN : (network D).ReachableIf Orderly N) : Together N :=
  Lts.reachableIf_invariant (together_start D) (fun _ _ _ h horderly hstep => h.step horderly hstep) hN

/-- **In an orderly run the sender stays in one group.** -/
theorem sender_in_one_group (D : Deployment Unit) (N : Net Unit)
    (hN : (network D).ReachableIf Orderly N) : ¬ Split (D.links ()) N.receiver := by
  have h := reachable_together hN
  rintro ⟨g, hg, g', hg', hne, c, hc, c', hc', -⟩
  have hfound := h.one g hg (List.ne_nil_of_mem hc)
  rw [h.one g' hg' (List.ne_nil_of_mem hc')] at hfound
  exact hne (congrArg ConnectionGroup.ref (Option.some.inj hfound).symm)

/-- A first registration is orderly. -/
theorem Early.orderly {act : Act Unit} (h : Early () N act) : Orderly N act := by
  cases act with
  | receive d ts env => exact fun hreg2 => Or.inl (h.2 d ts env rfl hreg2)
  | receiver op => trivial
  | deliver i ref d m ts ret fuel => exact fun _ g hg hne => absurd (h.1 g hg) hne
  | sender i op => trivial

theorem sender_in_one_group_registered : ∃ N : Net Unit, (network oneSender).ReachableIf Orderly N ∧
    (∃ g ∈ N.receiver.groups, g.conns ≠ []) ∧ ¬ Split (oneSender.links ()) N.receiver := by
  obtain ⟨N, up, down, -, -, h⟩ := At.registered (fun _ => fillHalf 1) (fun _ => sampleAddr 1)
    (fun _ => sampleAddr 2) () (fillHalf 2)
  have hN : (network oneSender).ReachableIf Orderly N := h.reach.mono fun _ _ => Early.orderly
  refine ⟨N, hN, ?_, sender_in_one_group _ N hN⟩
  rw [h.groups]
  exact ⟨_, List.mem_singleton_self _, List.cons_ne_nil _ _⟩

/-! ## NGPs that are not late -/

/-- An NGP on which the sender acts comes when the receiver has no group with the
    sender's id. A REG2 arrives at the receiver only with that id, or with an id of
    no group, and the id of a new group is another one. -/
def Current (N : Net Unit) : Act Unit → Prop
  | .receive d _ env =>
    (isSrtlaReg2 (mem (d.2.take mtu)) (d.2.take mtu).length = true →
      readBlock (mem (d.2.take mtu)) 2 256 = (N.senders ()).srtlaId ∨
        findGroupById N.receiver.groups (readBlock (mem (d.2.take mtu)) 2 256) = none) ∧
    (isSrtlaReg1 (mem (d.2.take mtu)) (d.2.take mtu).length = true →
      env.random ≠ (N.senders ()).srtlaId.secondHalf)
  | .deliver _ _ d m ts _ _ =>
    (N.senders ()).ActsOnNgp m (received d.2) ts →
      findGroupById N.receiver.groups (N.senders ()).srtlaId = none
  | _ => True

/-- While a link waits for its REG2, the receiver has no group with the sender's id. -/
structure Awaiting (N : Net Unit) : Prop extends Together N where
  unknown : ∀ ref, (N.senders ()).pendingReg2Conn = some ref →
    findGroupById N.receiver.groups (N.senders ()).srtlaId = none

/-- The REG2 that is adopted then finds the receiver without connections. -/
theorem Awaiting.orderly {act : Act Unit} (h : Awaiting N) (hcurrent : Current N act) : Orderly N act := by
  cases act with
  | receive d ts env => exact hcurrent.1
  | deliver i ref d m ts ret fuel =>
    intro hadopts g hg hne
    have hfound := h.one g hg hne
    rw [h.unknown ref hadopts.2.2.1] at hfound
    cases hfound
  | receiver op => trivial
  | sender i op => trivial

/-- No step of the receiver gives the id to a group, if it is not chosen for a new one. -/
theorem unknown_step {R : Receiver.State} (h : Inv R) {id : SrtlaId} (hnone : findGroupById R.groups id = none)
    {op : Receiver.Op} (hop : ∀ buf addr ts env, op = .packet buf addr ts env →
      isSrtlaReg1 (mem buf) buf.length = true → env.random ≠ id.secondHalf) :
    findGroupById (Receiver.step R op).1.groups id = none := by
  by_contra hsome
  obtain ⟨g', hfound⟩ := Option.ne_none_iff_exists'.mp hsome
  obtain ⟨hg', hid⟩ := findGroupById_eq_some hfound
  cases step_origin h op hg' with
  | old hg _ hsame _ _ _ =>
    have hmem := List.find?_eq_none.mp hnone _ hg
    rw [← hsame, hid] at hmem
    exact hmem (by simp [constantTimeCompare_eq_zero_iff])
  | created hinput hreg1 heq =>
    refine hop _ _ _ _ hinput hreg1 ?_
    rw [← hid, heq]
    exact (SrtlaId.secondHalf_ofHalves _ _).symm

theorem Awaiting.step {N' : Net Unit} {act : Act Unit} (h : Awaiting N) (hcurrent : Current N act)
    (hstep : (network D).step N act N') : Awaiting N' := by
  refine ⟨h.toTogether.step (h.orderly hcurrent) hstep, fun ref hp => ?_⟩
  obtain ⟨he, hnext⟩ := hstep
  have hsender : ∀ r, (N.afterSender () r).senders () = r.1 := fun r => by simp [Net.afterSender]
  cases act with
  | receive d ts env =>
    rw [← Option.some.inj hnext] at hp ⊢
    refine unknown_step h.inv (h.unknown ref hp) ?_
    rintro _ _ _ _ ⟨⟩
    exact hcurrent.2
  | receiver op =>
    rw [← Option.some.inj hnext] at hp ⊢
    refine unknown_step h.inv (h.unknown ref hp) ?_
    rintro _ _ _ _ rfl
    exact he.elim
  | deliver i k d m ts ret fuel =>
    obtain ⟨r, hr, rfl⟩ := Option.map_eq_some_iff.mp hnext
    rw [hsender] at hp ⊢
    obtain ⟨hid, hbefore | ⟨_, _, _, _, _, heq, hacts⟩⟩ := Sender.step_pending hr hp
    · rw [hid]
      exact h.unknown ref hbefore
    · cases heq
      rw [hid]
      exact hcurrent hacts
  | sender i op =>
    obtain ⟨r, hr, rfl⟩ := Option.map_eq_some_iff.mp hnext
    rw [hsender] at hp ⊢
    obtain ⟨hid, hbefore | ⟨_, _, _, _, _, rfl, _⟩⟩ := Sender.step_pending hr hp
    · rw [hid]
      exact h.unknown ref hbefore
    · exact he.elim

/-- **A run without late NGPs is orderly.** -/
theorem Current.orderly (hN : (network D).ReachableIf Current N) : (network D).ReachableIf Orderly N := by
  refine hN.mono_of_invariant (I := Awaiting) ⟨together_start D, fun ref hp => ?_⟩
    (fun _ _ _ h hcurrent hstep => h.step hcurrent hstep) fun _ _ h hcurrent => h.orderly hcurrent
  rfl

/-! ## A late NGP -/

/-- **One sender in two groups.** The first link has joined its group, but the
    REG3 for it and the REG2 of the second link are lost. The NGP that answered the
    second link's first REG2 arrives five seconds late, when no link is active and
    the registration timeout has passed: the second link asks for a group of its
    own and joins it. -/
theorem sender_in_two_groups : ∃ N : Net Unit, (network oneSender).Reachable N ∧
    Split (oneSender.links ()) N.receiver := by
  obtain ⟨N, up, down, -, hngp, h⟩ := At.registered (fun _ => fillHalf 1) (fun _ => sampleAddr 1)
    (fun _ => sampleAddr 2) () (fillHalf 2)
  replace h := h.mono (Q := fun _ _ => True) fun _ _ _ => trivial
  set link := openLink 1 srcB (sampleAddr 2)
  set id := SrtlaId.ofHalves (fillHalf 1) (fillHalf 2)
  set g := handshakeGroup (.ofHalves (fillHalf 1) (zeroBlock 128)) (fillHalf 2) (sampleAddr 1)
    (sampleAddr 1) 100 100
  set g' := ConnectionGroup.create 2 id.firstHalf (fillHalf 3) 105 (sampleAddr 2)
  have hfree : ¬ g.Owns (sampleAddr 2) := by decide
  have hne : g.id ≠ g'.id := by
    intro he
    have hhalf := congrArg SrtlaId.secondHalf he
    change (SrtlaId.ofHalves _ (fillHalf 2)).secondHalf = (SrtlaId.ofHalves _ (fillHalf 3)).secondHalf
      at hhalf
    rw [SrtlaId.secondHalf_ofHalves, SrtlaId.secondHalf_ofHalves, fillHalf_inj] at hhalf
    exact absurd hhalf (by decide)
  -- the late NGP, the REG1 and its REG2
  obtain ⟨N₁, h₁⟩ := h.ask (c := link) 105 hngp rfl rfl (openLink_fd _ _ _) rfl rfl
    (show (104 : ℤ) < 105 by decide) trivial
  obtain ⟨N₂, h₂⟩ := h₁.create 105 (fillHalf 3) List.mem_cons_self (by decide)
    (fun x hx => by rw [List.mem_singleton.mp hx]; exact hfree) trivial
  obtain ⟨N₃, h₃⟩ := h₂.adopt (c := link) 105 List.mem_cons_self rfl rfl (openLink_fd _ _ _) rfl
    (SrtlaId.firstHalf_ofHalves _ _) trivial
  -- the second link joins the second group
  have hfind : findGroupById [g, g'] g'.id = some g' := by
    rw [findGroupById_cons_of_ne hne, findGroupById_self]
  have howner : ∀ x ∈ [g, g'], x.Owns (sampleAddr 2) → x = g' := by
    intro x hx howns
    rcases List.mem_pair.mp hx with rfl | rfl
    · exact absurd howns hfree
    · rfl
  obtain ⟨N₄, h₄⟩ := h₃.join (sampleAddr 2) 105 List.mem_cons_self hfind howner
    (fun c hc => absurd hc List.not_mem_nil) (by show 0 < maxConnsPerGroup; decide) trivial
  refine ⟨N₄, h₄.reach, ?_⟩
  rw [Split, h₄.groups]
  exact ⟨g, List.mem_cons_self, _, List.mem_cons_of_mem _ List.mem_cons_self, (by decide : (0 : ℕ) ≠ 2),
    _, List.mem_cons_self, _, List.mem_cons_self, Or.inl rfl, Or.inr rfl, sampleAddr_ne (by decide)⟩

end Srtla.System
