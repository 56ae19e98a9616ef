import Srtla.Sender.Bookkeeping

/-!
# Reloading the source addresses (`src/sender.cpp:440-526`, `src/common.c:56-66`)

On a signal the sender reads its file of source addresses again. `update_conns`
marks all links as removed, `setup_conns` takes the mark off the links whose
address is in the file and adds a link for every other address, and a last loop
takes out the links that are still marked.

`inet_addr` is a parameter, an arbitrary function of the line; 255.255.255.255 is
what it returns for a line that it does not accept.

Results:
* `merged_setupConns`: what `setup_conns` makes of the marked list.
* `reload_exact_diff`: the links after a reload are the links of the addresses in
  the file, and the links that were there before are as they were.
-/

namespace Srtla.Sender

open Lib

/-! ## Reading the file -/

/-- The lines that `getline` reads, without their line feeds (lines 460-464). -/
def getlines : Bytes → List Bytes
  | [] => []
  | b :: bs =>
    if b = 10 then [] :: getlines bs
    else
      match getlines bs with
      | [] => [[b]]
      | line :: lines => (b :: line) :: lines

/-- `INADDR_NONE`, what `inet_addr` returns when it fails. -/
def inaddrNone : Block 4 := ⟨List.replicate 4 255, List.length_replicate⟩

/-- `parse_ip` (`src/common.c:56-66`). -/
def parseIp (inetAddr : Bytes → Block 4) (ipStr : Bytes) : Option (Block 4) :=
  if inetAddr ipStr = inaddrNone then none else some (inetAddr ipStr)

/-- The file as `setup_conns` reads it. A line is a C string, which ends at a zero byte. -/
def readSources (inetAddr : Bytes → Block 4) (contents : Bytes) : List (Option (Block 4)) :=
  (getlines contents).map fun line => parseIp inetAddr (line.takeWhile fun b => decide (b ≠ 0))

/-! ## Closing descriptors -/

/-- The descriptors that the removal loop closes (line 519). -/
def removeLoopCloses : List Conn → List ℤ
  | [] => []
  | c :: cs => if c.removed then c.fd :: removeLoopCloses cs else removeLoopCloses cs

/-- The descriptors that `update_conns` closes. -/
def State.updateConnsCloses (s : State) (lines : List (Option (Block 4))) : List ℤ :=
  removeLoopCloses
    (State.setupConns { s with conns := s.conns.map fun c : Conn => { c with removed := true } } lines).conns

theorem removeLoopCloses_eq (conns : List Conn) :
    removeLoopCloses conns = (conns.filter Conn.removed).map Conn.fd := by
  induction conns with
  | nil => rfl
  | cons c conns ih =>
    unfold removeLoopCloses
    by_cases hremoved : c.removed = true
    · rw [if_pos hremoved, List.filter_cons_of_pos hremoved, List.map_cons, ih]
    · rw [if_neg hremoved, List.filter_cons_of_neg hremoved, ih]

/-! ## Setting up the links -/

/-- The mark of a link once the lines `seen` have been read. -/
def Conn.listed (seen : List (Option (Block 4))) (c : Conn) : Conn :=
  { c with removed := decide (some c.src ∉ seen) }

/-- `setup_conns` after the lines `seen`, from the marked links of `s`: it has put
    the links `news` in front of them. -/
structure Merged (s : State) (seen : List (Option (Block 4))) (news : List Conn) (s' : State) : Prop where
  conns : s'.conns = news ++ s.conns.map (Conn.listed seen)
  created : ∀ c ∈ news, ∃ ref, s.nextRef ≤ ref ∧ c = Conn.create ref c.src
  mem_news : ∀ a, a ∈ news.map Conn.src ↔ some a ∈ seen ∧ a ∉ s.conns.map Conn.src
  nextRef : s.nextRef ≤ s'.nextRef
  pending : s'.pendingReg2Conn = s.pendingReg2Conn
  activeFds : s'.activeFds = s.activeFds

variable {s s' : State} {seen : List (Option (Block 4))} {news : List Conn} {src : Block 4} {c : Conn}

theorem Conn.listed_congr {seen' : List (Option (Block 4))} (h : some c.src ∈ seen ↔ some c.src ∈ seen') :
    c.listed seen = c.listed seen' := by
  unfold Conn.listed
  simp only [h]

theorem Merged.map_src (h : Merged s seen news s') :
    s'.conns.map Conn.src = news.map Conn.src ++ s.conns.map Conn.src := by
  rw [h.conns, List.map_append, List.map_map]
  rfl

/-- Unmarking the link of an address through its pointer unmarks it by its address. -/
theorem setupLine_found (hd : s.Distinct) (hsrcs : (s.conns.map Conn.src).Nodup)
    (hmem : src ∈ s.conns.map Conn.src) :
    s.setupLine (some src) =
      { s with conns := s.conns.map fun c => if c.src = src then { c with removed := false } else c } := by
  unfold State.setupLine
  dsimp only
  cases hfind : connFindBySrc s.conns src with
  | none => exact absurd hmem (connFindBySrc_eq_none hfind)
  | some d =>
    have hd' : d ∈ s.conns := List.mem_of_find?_eq_some hfind
    have hsrc : src = d.src := by simpa using List.find?_some hfind
    show ({ s with conns := Keyed.put Conn.ref { d with removed := false } s.conns } : State) = _
    congr 1
    refine List.map_congr_left fun c hc => ?_
    have hiff : c.ref = d.ref ↔ c.src = src := by
      constructor
      · intro href
        rw [Keyed.eq_of_key_eq hd.refs hc hd' href, hsrc]
      · intro heq
        rw [Keyed.eq_of_key_eq hsrcs hc hd' (heq.trans hsrc)]
    by_cases href : c.ref = d.ref
    · rw [if_pos href, if_pos (hiff.mp href), Keyed.eq_of_key_eq hd.refs hc hd' href]
    · rw [if_neg href, if_neg fun heq => href (hiff.mpr heq)]

/-- An address that has no link gets one. -/
theorem Merged.add (h : Merged s seen news s') (hnot : src ∉ s'.conns.map Conn.src) :
    Merged s (seen ++ [some src]) (Conn.create s'.nextRef src :: news) (s'.setupLine (some src)) := by
  have hnone : connFindBySrc s'.conns src = none := by
    refine List.find?_eq_none.mpr fun c hc => ?_
    simp only [decide_eq_true_eq]
    exact fun heq => hnot (heq ▸ List.mem_map_of_mem hc)
  have hline : s'.setupLine (some src) =
      { s' with conns := Conn.create s'.nextRef src :: s'.conns, nextRef := s'.nextRef + 1 } := by
    unfold State.setupLine
    dsimp only
    rw [hnone]
  rw [h.map_src, List.mem_append, not_or] at hnot
  rw [hline]
  refine ⟨?_, ?_, fun a => ?_, h.nextRef.trans (Nat.le_succ _), h.pending, h.activeFds⟩
  · show _ :: s'.conns = _
    rw [h.conns, List.cons_append]
    congr 2
    refine List.map_congr_left fun c hc => Conn.listed_congr ?_
    have hne : c.src ≠ src := fun e => hnot.2 (e ▸ List.mem_map_of_mem hc)
    simp [hne]
  · intro c hc
    rcases List.mem_cons.mp hc with rfl | hc
    · exact ⟨_, h.nextRef, rfl⟩
    · exact h.created c hc
  · rw [List.map_cons, List.mem_cons, h.mem_news a]
    show a = src ∨ _ ↔ _
    constructor
    · rintro (rfl | ⟨hseen, hold⟩)
      · exact ⟨by simp, hnot.2⟩
      · exact ⟨List.mem_append_left _ hseen, hold⟩
    · rintro ⟨hseen, hold⟩
      rcases List.mem_append.mp hseen with hseen | hsrc
      · exact Or.inr ⟨hseen, hold⟩
      · exact Or.inl (Option.some.inj (List.mem_singleton.mp hsrc))

/-- The link of an address that has one loses its mark. -/
theorem Merged.keep (h : Merged s seen news s') (hd : s'.Distinct) (hsrcs : (s'.conns.map Conn.src).Nodup)
    (hmem : src ∈ s'.conns.map Conn.src) :
    Merged s (seen ++ [some src]) news (s'.setupLine (some src)) := by
  rw [setupLine_found hd hsrcs hmem]
  rw [h.map_src, List.mem_append] at hmem
  refine ⟨?_, h.created, fun a => ?_, h.nextRef, h.pending, h.activeFds⟩
  · show s'.conns.map _ = _
    rw [h.conns, List.map_append, List.map_map]
    congr 1
    · -- a new link has no mark
      refine (List.map_congr_left fun c hc => ?_).trans (List.map_id _)
      obtain ⟨ref, _, heq⟩ := h.created c hc
      split_ifs
      · rw [heq]
        rfl
      · rfl
    · refine List.map_congr_left fun c _ => ?_
      show (if c.src = src then { c.listed seen with removed := false } else c.listed seen) = _
      by_cases hsrc : c.src = src
      · rw [if_pos hsrc]
        simp [Conn.listed, hsrc]
      · rw [if_neg hsrc]
        exact Conn.listed_congr (by simp [hsrc])
  · rw [h.mem_news a]
    refine and_congr_left fun hold => ⟨fun hseen => List.mem_append_left _ hseen, fun hseen => ?_⟩
    rcases List.mem_append.mp hseen with hseen | hsrc
    · exact hseen
    · obtain rfl : a = src := Option.some.inj (List.mem_singleton.mp hsrc)
      exact ((h.mem_news a).mp (hmem.resolve_right hold)).1

theorem Merged.setupLine (h : Merged s seen news s') (hd : s'.Distinct)
    (hsrcs : (s'.conns.map Conn.src).Nodup) (line : Option (Block 4)) :
    ∃ news', Merged s (seen ++ [line]) news' (s'.setupLine line) := by
  cases line with
  | none =>
    refine ⟨news, ?_, h.created, fun a => ?_, h.nextRef, h.pending, h.activeFds⟩
    · rw [State.setupLine, h.conns]
      congr 1
      exact List.map_congr_left fun c _ => Conn.listed_congr (by simp)
    · rw [h.mem_news a]
      simp
  | some src =>
    by_cases hmem : src ∈ s'.conns.map Conn.src
    · exact ⟨news, h.keep hd hsrcs hmem⟩
    · exact ⟨_, h.add hmem⟩

theorem Merged.setupConns (h : Merged s seen news s') (hd : s'.Distinct)
    (hsrcs : (s'.conns.map Conn.src).Nodup) (lines : List (Option (Block 4))) :
    ∃ news', Merged s (seen ++ lines) news' (s'.setupConns lines) ∧
      ((s'.setupConns lines).conns.map Conn.src).Nodup := by
  induction lines generalizing s' seen news with
  | nil => exact ⟨news, by rwa [List.append_nil], hsrcs⟩
  | cons line lines ih =>
    obtain ⟨news', h'⟩ := h.setupLine hd hsrcs line
    rw [List.append_cons]
    exact ih h' (hd.setupLine line) (nodup_srcs_setupLine hd hsrcs line)

/-- The links of `s`, all marked. -/
def State.marked (s : State) : State :=
  { s with conns := s.conns.map fun c : Conn => { c with removed := true } }

/-- **`setup_conns` on the marked links.** -/
theorem merged_setupConns (hd : s.Distinct) (hsrcs : (s.conns.map Conn.src).Nodup)
    (lines : List (Option (Block 4))) :
    ∃ news, Merged s lines news (s.marked.setupConns lines) ∧
      ((s.marked.setupConns lines).conns.map Conn.src).Nodup := by
  have hinit : Merged s [] [] s.marked := by
    refine ⟨?_, fun c hc => absurd hc List.not_mem_nil, fun a => by simp, le_rfl, rfl, rfl⟩
    exact List.map_congr_left fun c _ => by simp [Conn.listed]
  refine hinit.setupConns hd.mark ?_ lines
  rw [hinit.map_src]
  exact hsrcs

/-! ## Taking out the links that are still marked -/

variable {lines : List (Option (Block 4))}

theorem Merged.mem_removed (h : Merged s lines news s') :
    c ∈ s'.conns ∧ c.removed = true ↔
      ∃ d ∈ s.conns, some d.src ∉ lines ∧ c = { d with removed := true } := by
  rw [h.conns, List.mem_append]
  constructor
  · rintro ⟨hc | hc, hremoved⟩
    · obtain ⟨ref, _, heq⟩ := h.created c hc
      rw [heq] at hremoved
      cases hremoved
    · obtain ⟨d, hd, rfl⟩ := List.mem_map.mp hc
      have hnot : some d.src ∉ lines := of_decide_eq_true hremoved
      exact ⟨d, hd, hnot, by simp [Conn.listed, hnot]⟩
  · rintro ⟨d, hd, hnot, rfl⟩
    exact ⟨Or.inr (List.mem_map.mpr ⟨d, hd, by simp [Conn.listed, hnot]⟩), rfl⟩

/-- What holds of the marked links holds of the links whose address is gone. -/
theorem Merged.forall_removed (h : Merged s lines news s') (P : ℕ → ℤ → Prop) :
    (∀ c ∈ s'.conns, c.removed = true → P c.ref c.fd) ↔
      ∀ c ∈ s.conns, some c.src ∉ lines → P c.ref c.fd := by
  constructor
  · intro hP c hc hnot
    obtain ⟨hmarked, hremoved⟩ := h.mem_removed.mpr ⟨c, hc, hnot, rfl⟩
    exact hP { c with removed := true } hmarked hremoved
  · intro hP c hc hremoved
    obtain ⟨d, hd, hnot, rfl⟩ := h.mem_removed.mp ⟨hc, hremoved⟩
    exact hP d hd hnot

theorem Merged.mem_kept (h : Merged s lines news s') :
    c ∈ s'.conns.filter (fun c => !c.removed) ↔
      c ∈ news ∨ ∃ d ∈ s.conns, some d.src ∈ lines ∧ c = { d with removed := false } := by
  rw [List.mem_filter, Bool.not_eq_true', h.conns, List.mem_append]
  constructor
  · rintro ⟨hc | hc, hkept⟩
    · exact Or.inl hc
    · obtain ⟨d, hd, rfl⟩ := List.mem_map.mp hc
      have hmem : some d.src ∈ lines := not_not.mp (of_decide_eq_false hkept)
      exact Or.inr ⟨d, hd, hmem, by simp [Conn.listed, hmem]⟩
  · rintro (hc | ⟨d, hd, hmem, rfl⟩)
    · obtain ⟨ref, _, heq⟩ := h.created c hc
      refine ⟨Or.inl hc, ?_⟩
      rw [heq]
      rfl
    · exact ⟨Or.inr (List.mem_map.mpr ⟨d, hd, by simp [Conn.listed, hmem]⟩), rfl⟩

/-- The addresses of the links that are left are those of the lines. -/
theorem Merged.mem_src_kept (h : Merged s lines news s') {a : Block 4} :
    a ∈ (s'.conns.filter fun c => !c.removed).map Conn.src ↔ some a ∈ lines := by
  rw [List.mem_map]
  constructor
  · rintro ⟨c, hc, rfl⟩
    rcases h.mem_kept.mp hc with hnew | ⟨d, _, hin, rfl⟩
    · exact ((h.mem_news c.src).mp (List.mem_map_of_mem hnew)).1
    · exact hin
  · intro hin
    by_cases ha : a ∈ s.conns.map Conn.src
    · obtain ⟨d, hd, rfl⟩ := List.mem_map.mp ha
      exact ⟨_, h.mem_kept.mpr (Or.inr ⟨d, hd, hin, rfl⟩), rfl⟩
    · obtain ⟨c, hc, rfl⟩ := List.mem_map.mp ((h.mem_news a).mpr ⟨hin, ha⟩)
      exact ⟨c, h.mem_kept.mpr (Or.inl hc), rfl⟩

/-- A link whose address is gone is not left, nor is its identity used again. -/
theorem Merged.ref_not_kept (h : Merged s lines news s') (hd : s.Distinct) (hc : c ∈ s.conns)
    (hnot : some c.src ∉ lines) : c.ref ∉ (s'.conns.filter fun c => !c.removed).map Conn.ref := by
  intro hmem
  obtain ⟨d, hdr, href⟩ := List.mem_map.mp hmem
  rcases h.mem_kept.mp hdr with hnew | ⟨e, he, hin, rfl⟩
  · obtain ⟨ref, hle, heq⟩ := h.created d hnew
    have hlt := hd.fresh c hc
    have hdref : d.ref = ref := by
      rw [heq]
      rfl
    omega
  · rw [← Keyed.eq_of_key_eq hd.refs he hc href] at hnot
    exact hnot hin

/-- The removal loop closes the descriptors of the links whose address is gone, in
    their order. -/
theorem Merged.closes (h : Merged s lines news s') :
    removeLoopCloses s'.conns = (s.conns.filter fun c => decide (some c.src ∉ lines)).map Conn.fd := by
  have hnews : news.filter Conn.removed = [] := by
    refine List.filter_eq_nil_iff.mpr fun c hc => ?_
    obtain ⟨ref, _, heq⟩ := h.created c hc
    rw [heq]
    exact Bool.false_ne_true
  rw [removeLoopCloses_eq, h.conns, List.filter_append, hnews, List.nil_append, List.filter_map,
    List.map_map]
  rfl

/-- **Reloading the source list is an exact diff.** After `update_conns` the source
    addresses of the links are the addresses that `parse_ip` accepts from the lines
    of the file, each once. A link whose address was there before and still is has
    not changed, apart from its mark; every other link is a new one. The links
    whose address is gone are out of the list, their descriptors are closed and no
    longer watched, and `pending_reg2_conn` is reset iff it was one of them. -/
theorem reload_exact_diff (hd : s.Distinct) (hsrcs : (s.conns.map Conn.src).Nodup)
    (inetAddr : Bytes → Block 4) (contents : Bytes) :
    let lines := readSources inetAddr contents
    let r := s.updateConns (some lines)
    ((r.conns.map Conn.src).Nodup ∧ ∀ a, a ∈ r.conns.map Conn.src ↔ some a ∈ lines) ∧
    (∀ c ∈ s.conns, some c.src ∈ lines → { c with removed := false } ∈ r.conns) ∧
    (∀ c ∈ r.conns, c.src ∈ s.conns.map Conn.src → ∃ d ∈ s.conns, c = { d with removed := false }) ∧
    (∀ c ∈ r.conns, c.src ∉ s.conns.map Conn.src → ∃ ref, s.nextRef ≤ ref ∧ c = Conn.create ref c.src) ∧
    (∀ c ∈ s.conns, some c.src ∉ lines → c.ref ∉ r.conns.map Conn.ref) ∧
    s.updateConnsCloses lines = (s.conns.filter fun c => decide (some c.src ∉ lines)).map Conn.fd ∧
    (∀ fd, fd ∈ r.activeFds ↔
      fd ∈ s.activeFds ∧ ∀ c ∈ s.conns, some c.src ∉ lines → 0 ≤ c.fd → c.fd ≠ fd) ∧
    ∀ ref, r.pendingReg2Conn = some ref ↔
      s.pendingReg2Conn = some ref ∧ ∀ c ∈ s.conns, some c.src ∉ lines → c.ref ≠ ref := by
  intro lines r
  obtain ⟨news, hm, hnodup⟩ := merged_setupConns hd hsrcs lines
  have hr : r = removeLoop (s.marked.setupConns lines) (s.marked.setupConns lines).conns := rfl
  have hconns : r.conns = (s.marked.setupConns lines).conns.filter fun c => !c.removed := removeLoop_conns _ _
  rw [hconns]
  refine ⟨⟨?_, fun a => hm.mem_src_kept⟩, fun c hc hin => hm.mem_kept.mpr (Or.inr ⟨c, hc, hin, rfl⟩),
    fun c hc hsrc => ?_, fun c hc hsrc => ?_, fun c hc hnot => hm.ref_not_kept hd hc hnot, hm.closes,
    fun fd => ?_, fun ref => ?_⟩
  · exact (List.filter_sublist.map Conn.src).nodup hnodup
  · rcases hm.mem_kept.mp hc with hnew | ⟨d, hd, _, rfl⟩
    · exact absurd hsrc ((hm.mem_news c.src).mp (List.mem_map_of_mem hnew)).2
    · exact ⟨d, hd, rfl⟩
  · rcases hm.mem_kept.mp hc with hnew | ⟨d, hd, _, rfl⟩
    · exact hm.created c hnew
    · exact absurd (List.mem_map_of_mem hd) hsrc
  · rw [hr, mem_removeLoop_activeFds, hm.activeFds]
    exact and_congr_right fun _ => hm.forall_removed fun _ x => 0 ≤ x → x ≠ fd
  · rw [hr, removeLoop_pending_iff, hm.pending]
    exact and_congr_right fun _ => hm.forall_removed fun x _ => x ≠ ref

theorem length_otherSource : ([10, 0, 0, 1] : Bytes).length = 4 := rfl

/-- The address 10.0.0.1. -/
def otherSource : Block 4 := ⟨[10, 0, 0, 1], length_otherSource⟩

/-- The characters of that address, and those of a name. -/
def otherLine : Bytes := [49, 48, 46, 48, 46, 48, 46, 49]

@[inherit_doc otherLine]
def nameLine : Bytes := [119, 108, 97, 110, 48]

/-- `inet_addr` on these two. -/
def otherInetAddr (line : Bytes) : Block 4 := if line = otherLine then otherSource else inaddrNone

/-- The file with both as its lines. -/
def otherFile : Bytes := otherLine ++ 10 :: nameLine ++ [10]

/-- The file of a sender with one link now has another address, and a line that is
    none: the link goes, and its descriptor is closed. -/
theorem reload_exact_diff_other :
    ∃ s, start oneLink = some s ∧ readSources otherInetAddr otherFile = [some otherSource, none] ∧
      s.updateConnsCloses (readSources otherInetAddr otherFile) = [oneLinkConn.fd] ∧
      ∀ a, a ∈ (s.updateConns (some (readSources otherInetAddr otherFile))).conns.map Conn.src ↔
        a = otherSource := by
  obtain ⟨s, hs, hconns, _⟩ := start_oneLink
  have hlines : readSources otherInetAddr otherFile = [some otherSource, none] := by decide
  have hsrcs : (s.conns.map Conn.src).Nodup := by
    rw [hconns]
    exact List.nodup_singleton _
  obtain ⟨⟨_, hmem⟩, _, _, _, _, hcloses, _⟩ :=
    reload_exact_diff (start_calls hs).2 hsrcs otherInetAddr otherFile
  refine ⟨s, hs, hlines, ?_, fun a => ?_⟩
  · rw [hcloses, hlines, hconns]
    rfl
  · rw [hmem, hlines]
    simp

end Srtla.Sender
