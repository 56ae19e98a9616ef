import Srtla.Sender.Calls

/-!
# NAKs at the sender (`src/sender.cpp:392-408`)

The parser walks over the words of a NAK from word 4 on. A word with the top bit
set is the start of a range whose end is the next word; any other word is a
single number. The loop over a range compares its counter, which wraps around,
with the end as unsigned numbers.

Results:
* `nak_finishes_iff`: the branch finishes iff the end of no range is
  `0xFFFFFFFF`.
* `nak_decodes`: the calls of `register_nak` for an encoded loss list are those
  for the numbers that the list denotes.
* `nak_never_finishes`: a frame of 24 bytes that keeps the sender busy for good.
-/

namespace Srtla.Sender

open Lib

/-! ## NAK ranges -/

/-- A range that ends gives its numbers. -/
theorem nakRange_eq {fuel lost lastId : ℕ} (hlast : lastId < 2 ^ 32 - 1)
    (hfuel : lastId + 1 - lost < fuel) :
    nakRange fuel lost lastId = some ((List.range' lost (lastId + 1 - lost)).map toInt32) := by
  induction fuel generalizing lost with
  | zero => omega
  | succ fuel ih =>
    unfold nakRange
    by_cases hle : lost ≤ lastId
    · rw [if_pos hle, Nat.mod_eq_of_lt (by omega), ih (by omega), Option.map_some,
        show lastId + 1 - lost = lastId + 1 - (lost + 1) + 1 by omega, List.range'_succ, List.map_cons]
    · rw [if_neg hle, show lastId + 1 - lost = 0 by omega]
      rfl

theorem nakRange_returns (lost lastId : ℕ) (hlast : lastId < 2 ^ 32 - 1) :
    ∃ fuel₀ range, ∀ fuel, fuel₀ ≤ fuel → nakRange fuel lost lastId = some range :=
  ⟨lastId + 2, _, fun _ hfuel => nakRange_eq hlast (by omega)⟩

/-- The range up to `0xFFFFFFFF` does not end. -/
theorem nakRange_never (fuel : ℕ) {lost : ℕ} (h : lost < 2 ^ 32) :
    nakRange fuel lost (2 ^ 32 - 1) = none := by
  induction fuel generalizing lost with
  | zero => rfl
  | succ fuel ih =>
    rw [nakRange, if_pos (by omega), ih (Nat.mod_lt _ (by decide))]
    rfl

/-- An empty range gives no numbers, whatever its end. -/
theorem nakRange_of_lt (fuel : ℕ) {lost lastId lastId' : ℕ} (h : lastId < lost) (h' : lastId' < lost) :
    nakRange fuel lost lastId = nakRange fuel lost lastId' := by
  cases fuel with
  | zero => rfl
  | succ fuel => rw [nakRange, nakRange, if_neg (by omega), if_neg (by omega)]

theorem nakRange_mono {fuel fuel' lost lastId : ℕ} {l : List ℤ} (hle : fuel ≤ fuel')
    (h : nakRange fuel lost lastId = some l) : nakRange fuel' lost lastId = some l := by
  induction fuel generalizing fuel' lost l with
  | zero => cases h
  | succ fuel ih =>
    obtain ⟨k, rfl⟩ := Nat.exists_eq_add_of_lt (Nat.lt_of_lt_of_le (Nat.lt_succ_self fuel) hle)
    unfold nakRange at h ⊢
    split_ifs at h ⊢
    · obtain ⟨rest, hrest, rfl⟩ := Option.map_eq_some_iff.mp h
      rw [ih (by omega) hrest]
      rfl
    · exact h

/-! ## The words of a NAK -/

theorem nakIds_past {fuel : ℕ} {buf : Mem} {n : ℤ} {i : ℕ} (k : ℕ) (h : ¬ (i : ℤ) < n / 4) :
    nakIds fuel buf n k i = some [] := by
  cases k with
  | zero => rfl
  | succ k => rw [nakIds, if_neg h]

theorem nakIds_mono {fuel fuel' : ℕ} {buf : Mem} {n : ℤ} {k i : ℕ} {l : List ℤ} (hle : fuel ≤ fuel')
    (h : nakIds fuel buf n k i = some l) : nakIds fuel' buf n k i = some l := by
  induction k generalizing i l with
  | zero => exact h
  | succ k ih =>
    unfold nakIds at h ⊢
    dsimp only at h ⊢
    split_ifs at h ⊢
    · obtain ⟨range, hrange, htail⟩ := Option.bind_eq_some_iff.mp h
      obtain ⟨rest, hrest, rfl⟩ := Option.map_eq_some_iff.mp htail
      rw [nakRange_mono hle hrange, Option.bind_some, ih hrest]
      rfl
    · obtain ⟨rest, hrest, rfl⟩ := Option.map_eq_some_iff.mp h
      rw [ih hrest]
      rfl
    · exact h

/-- A word below `2 ^ 31` is a single number. -/
theorem nakIds_single {fuel : ℕ} {buf : Mem} {n : ℤ} {i : ℕ} (k : ℕ) (hi : (i : ℤ) < n / 4)
    (hword : be32 buf (4 * i) < 2 ^ 31) :
    nakIds fuel buf n (k + 1) i =
      (nakIds fuel buf n k (i + 1)).map fun rest => (be32 buf (4 * i) : ℤ) :: rest := by
  have hbit : be32 buf (4 * i) &&& (1 <<< 31) = 0 :=
    (and_top_bit_eq_zero_iff (be32_lt buf (4 * i))).mpr hword
  rw [nakIds, if_pos hi]
  dsimp only
  rw [if_neg (not_not.mpr hbit), toInt32_of_lt hword]

/-- Any other word is `2 ^ 31` and the start of a range up to the next word. -/
theorem nakIds_range {fuel : ℕ} {buf : Mem} {n : ℤ} {i : ℕ} (k : ℕ) (hi : (i : ℤ) < n / 4)
    (hword : 2 ^ 31 ≤ be32 buf (4 * i)) :
    nakIds fuel buf n (k + 1) i =
      (nakRange fuel (be32 buf (4 * i) - 2 ^ 31) (be32 buf (4 * (i + 1)))).bind fun range =>
        (nakIds fuel buf n k (i + 2)).map fun rest => range ++ rest := by
  have hlt : be32 buf (4 * i) < 2 ^ 32 := be32_lt buf (4 * i)
  have hbit : be32 buf (4 * i) &&& (1 <<< 31) ≠ 0 := fun h =>
    absurd ((and_top_bit_eq_zero_iff hlt).mp h) (by omega)
  have hmask : be32 buf (4 * i) &&& 0x7FFFFFFF = be32 buf (4 * i) - 2 ^ 31 := by
    rw [show (0x7FFFFFFF : ℕ) = 2 ^ 31 - 1 from rfl, Nat.and_two_pow_sub_one_eq_mod]
    omega
  rw [nakIds, if_pos hi]
  dsimp only
  rw [if_pos hbit, hmask]

/-- The NAK branch: the numbers are reported one by one, and the datagram goes to
    the caller. -/
theorem handleSrtlaData_nak {buf : Mem} {n : ℤ} (htype : getSrtType buf n = srtTypeNak) (s : State)
    (c : Conn) (ts : ℤ) (ret : ℕ → ℤ) (fuel : ℕ) :
    handleSrtlaData s c buf n ts ret fuel =
      (nakIds fuel buf n (n / 4).toNat 4).map fun ids =>
        ({ s.putConn { c with lastRcvd := ts } with
            conns := ids.foldl (fun conns id => registerNak id conns)
              (s.putConn { c with lastRcvd := ts }).conns },
          [Effect.caller s.srtAddr (window buf 0 n.toNat)]) := by
  have hn : ¬ n ≤ 0 := by
    intro hn
    unfold getSrtType at htype
    rw [if_pos (by omega)] at htype
    exact absurd htype (by decide)
  unfold handleSrtlaData dispatch
  rw [if_neg hn, htype, if_neg (by decide), if_neg (by decide)]
  dsimp only
  rw [if_neg (by decide), if_pos rfl]
  rfl

/-! ## When the branch finishes -/

/-- The ends of the ranges that the loop meets from word `i` on, in at most `k`
    iterations. -/
def rangeEnds (buf : Mem) (n : ℤ) : (k i : ℕ) → List ℕ
  | 0, _ => []
  | k + 1, i =>
    if (i : ℤ) < n / 4 then
      if 2 ^ 31 ≤ be32 buf (4 * i) then be32 buf (4 * (i + 1)) :: rangeEnds buf n k (i + 2)
      else rangeEnds buf n k (i + 1)
    else []

theorem nakIds_returns_iff (buf : Mem) (n : ℤ) (k i : ℕ) :
    (∃ fuel ids, nakIds fuel buf n k i = some ids) ↔ 2 ^ 32 - 1 ∉ rangeEnds buf n k i := by
  induction k generalizing i with
  | zero => exact ⟨fun _ => List.not_mem_nil, fun _ => ⟨0, [], rfl⟩⟩
  | succ k ih =>
    unfold rangeEnds
    by_cases hi : (i : ℤ) < n / 4
    · rw [if_pos hi]
      by_cases hword : 2 ^ 31 ≤ be32 buf (4 * i)
      · rw [if_pos hword, List.mem_cons, not_or, ← ih]
        have hlt : be32 buf (4 * (i + 1)) < 2 ^ 32 := be32_lt buf (4 * (i + 1))
        constructor
        · rintro ⟨fuel, ids, h⟩
          rw [nakIds_range k hi hword] at h
          obtain ⟨range, hrange, htail⟩ := Option.bind_eq_some_iff.mp h
          obtain ⟨rest, hrest, _⟩ := Option.map_eq_some_iff.mp htail
          refine ⟨fun hend => ?_, fuel, rest, hrest⟩
          have hstart : be32 buf (4 * i) < 2 ^ 32 := be32_lt buf (4 * i)
          rw [← hend, nakRange_never fuel (by omega)] at hrange
          cases hrange
        · rintro ⟨hend, fuel, rest, hrest⟩
          obtain ⟨fuel', range, hrange⟩ := nakRange_returns (be32 buf (4 * i) - 2 ^ 31)
            (be32 buf (4 * (i + 1))) (by omega)
          refine ⟨max fuel fuel', range ++ rest, ?_⟩
          rw [nakIds_range k hi hword, hrange _ (le_max_right _ _),
            nakIds_mono (le_max_left fuel fuel') hrest]
          rfl
      · rw [if_neg hword, ← ih]
        have hsingle := fun fuel => @nakIds_single fuel buf n i k hi (Nat.lt_of_not_le hword)
        constructor
        · rintro ⟨fuel, ids, h⟩
          rw [hsingle] at h
          obtain ⟨rest, hrest, _⟩ := Option.map_eq_some_iff.mp h
          exact ⟨fuel, rest, hrest⟩
        · rintro ⟨fuel, rest, hrest⟩
          exact ⟨fuel, _, by rw [hsingle, hrest]; rfl⟩
    · rw [if_neg hi]
      exact ⟨fun _ => List.not_mem_nil, fun _ => ⟨0, [], nakIds_past (k + 1) hi⟩⟩

/-- **Which NAKs are handled.** The handler returns from a NAK iff none of the
    ranges that it meets ends at `0xFFFFFFFF`: for that end `lost <= last_id` is
    true whatever `lost` is. -/
theorem nak_finishes_iff (s : State) (c : Conn) {buf : Mem} {n : ℤ} (ts : ℤ) (ret : ℕ → ℤ)
    (htype : getSrtType buf n = srtTypeNak) :
    (∃ fuel r, handleSrtlaData s c buf n ts ret fuel = some r) ↔
      2 ^ 32 - 1 ∉ rangeEnds buf n (n / 4).toNat 4 := by
  rw [← nakIds_returns_iff]
  constructor
  · rintro ⟨fuel, r, h⟩
    rw [handleSrtlaData_nak htype] at h
    obtain ⟨ids, hids, _⟩ := Option.map_eq_some_iff.mp h
    exact ⟨fuel, ids, hids⟩
  · rintro ⟨fuel, ids, hids⟩
    exact ⟨fuel, _, by rw [handleSrtlaData_nak htype, hids]; rfl⟩

/-- The header of a NAK with zeros in its other fields. -/
def nakHeader : Bytes := putBe16 srtTypeNak ++ List.replicate 14 0

/-- A NAK with one range. -/
def nakOfRange (first last : ℕ) : Bytes := nakHeader ++ putWords [first + 2 ^ 31, last]

theorem nak_finishes_short_range :
    getSrtType (mem (nakOfRange 5 7)) 24 = srtTypeNak ∧
      2 ^ 32 - 1 ∉ rangeEnds (mem (nakOfRange 5 7)) 24 6 4 ∧
      ∃ fuel r, handleSrtlaData State.zero oneLinkConn (mem (nakOfRange 5 7)) 24 100 (fun _ => 0) fuel =
        some r :=
  have hends : 2 ^ 32 - 1 ∉ rangeEnds (mem (nakOfRange 5 7)) 24 6 4 := by decide
  ⟨by decide, hends, (nak_finishes_iff State.zero oneLinkConn 100 (fun _ => 0) (by decide)).mpr hends⟩

/-- One datagram of 24 bytes, on the only link of a sender that has just
    started, is never handled to its end. -/
theorem nak_never_finishes :
    ∃ s₀, start oneLink = some s₀ ∧ s₀.conns = [oneLinkConn] ∧
      getSrtType (mem (nakOfRange 0 (2 ^ 32 - 1))) 24 = srtTypeNak ∧
      ∀ fuel, handleSrtlaData s₀ oneLinkConn (mem (nakOfRange 0 (2 ^ 32 - 1))) 24 100 (fun _ => 0) fuel =
        none := by
  obtain ⟨s₀, h₀, hconns, _⟩ := start_oneLink
  have htype : getSrtType (mem (nakOfRange 0 (2 ^ 32 - 1))) 24 = srtTypeNak := by decide
  refine ⟨s₀, h₀, hconns, htype, fun fuel => ?_⟩
  have hids : nakIds fuel (mem (nakOfRange 0 (2 ^ 32 - 1))) 24 6 4 = none := by
    rw [nakIds_range 5 (by decide) (by decide)]
    have hend : be32 (mem (nakOfRange 0 (2 ^ 32 - 1))) (4 * (4 + 1)) = 2 ^ 32 - 1 := by decide
    rw [hend, nakRange_never fuel (by decide)]
    rfl
  rw [handleSrtlaData_nak htype]
  exact congrArg (Option.map _) hids

/-! ## Loss lists -/

/-- An entry of a loss list: a number, or the numbers from `first` to `last`. -/
inductive LossEntry
  | single (sn : ℕ)
  | range (first last : ℕ)
deriving DecidableEq

namespace LossEntry

/-- The numbers have 31 bits, and a range is not empty. -/
def Valid : LossEntry → Prop
  | single sn => sn < 2 ^ 31
  | range first last => first ≤ last ∧ last < 2 ^ 31

instance : DecidablePred Valid
  | single sn => inferInstanceAs (Decidable (sn < 2 ^ 31))
  | range first last => inferInstanceAs (Decidable (first ≤ last ∧ last < 2 ^ 31))

/-- The words of an entry: the top bit marks the start of a range. -/
def encode : LossEntry → List ℕ
  | single sn => [sn]
  | range first last => [first + 2 ^ 31, last]

/-- What an entry denotes. -/
def numbers : LossEntry → List ℤ
  | single sn => [(sn : ℤ)]
  | range first last => (List.range' first (last + 1 - first)).map fun sn : ℕ => (sn : ℤ)

theorem encode_lt {e : LossEntry} (h : e.Valid) : ∀ w ∈ e.encode, w < 4294967296 := by
  intro w hw
  cases e with
  | single sn =>
    have hsn : sn < 2 ^ 31 := h
    obtain rfl := List.mem_singleton.mp hw
    omega
  | range first last =>
    obtain ⟨hle, hlast⟩ : first ≤ last ∧ last < 2 ^ 31 := h
    obtain rfl | hw := List.mem_cons.mp hw
    · omega
    · obtain rfl := List.mem_singleton.mp hw
      omega

end LossEntry

/-- A NAK: a header and a loss list. -/
def nakFrame (header : Bytes) (entries : List LossEntry) : Bytes :=
  header ++ putWords (entries.flatMap LossEntry.encode)

theorem nakRange_valid {fuel first last : ℕ} (hlast : last < 2 ^ 31) (hfuel : 2 ^ 31 < fuel) :
    nakRange fuel first last = some (LossEntry.range first last).numbers := by
  rw [nakRange_eq (by omega) (by omega), LossEntry.numbers]
  refine congrArg some (List.map_congr_left fun sn hsn => toInt32_of_lt ?_)
  obtain ⟨hfirst, hlt⟩ := List.mem_range'_1.mp hsn
  omega

/-- The loop over the words of a loss list, from the word `i` that it starts at. -/
theorem nakIds_encode {fuel : ℕ} (hfuel : 2 ^ 31 < fuel) {buf : Mem} {n : ℤ}
    {entries : List LossEntry} (hvalid : ∀ e ∈ entries, e.Valid) {k i : ℕ}
    (hk : (entries.flatMap LossEntry.encode).length ≤ k)
    (hend : (i : ℤ) + (entries.flatMap LossEntry.encode).length = n / 4)
    (hwords : words buf (4 * i) (entries.flatMap LossEntry.encode).length =
      entries.flatMap LossEntry.encode) :
    nakIds fuel buf n k i = some (entries.flatMap LossEntry.numbers) := by
  induction entries generalizing k i with
  | nil => exact nakIds_past k (by simp at hend; omega)
  | cons e entries ih =>
    have hrest : ∀ e ∈ entries, e.Valid := fun e he => hvalid e (List.mem_cons_of_mem _ he)
    have he : e.Valid := hvalid e List.mem_cons_self
    rw [List.flatMap_cons, List.length_append] at hk hend hwords
    cases e with
    | single sn =>
      simp only [LossEntry.encode, List.length_singleton, List.singleton_append] at hk hend hwords
      rw [Nat.add_comm 1, words_succ, List.cons.injEq] at hwords
      obtain ⟨hsn, hwords⟩ := hwords
      obtain ⟨k, rfl⟩ := Nat.exists_eq_add_of_le' (show 1 ≤ k by omega)
      have htail : nakIds fuel buf n k (i + 1) = some (entries.flatMap LossEntry.numbers) :=
        ih hrest (by omega) (by push_cast at hend ⊢; omega) hwords
      rw [nakIds_single k (by omega) (hsn ▸ he), htail, hsn]
      rfl
    | range first last =>
      obtain ⟨hle, hlast⟩ : first ≤ last ∧ last < 2 ^ 31 := he
      simp only [LossEntry.encode, List.length_cons, List.length_nil, List.cons_append,
        List.nil_append] at hk hend hwords
      rw [Nat.add_comm _ (List.length _), words_succ, words_succ, List.cons.injEq, List.cons.injEq] at hwords
      obtain ⟨hfirst, hlastWord, hwords⟩ := hwords
      obtain ⟨k, rfl⟩ := Nat.exists_eq_add_of_le' (show 1 ≤ k by omega)
      have htail : nakIds fuel buf n k (i + 2) = some (entries.flatMap LossEntry.numbers) :=
        ih hrest (by omega) (by push_cast at hend ⊢; omega) hwords
      have hrange : nakRange fuel (be32 buf (4 * i) - 2 ^ 31) (be32 buf (4 * (i + 1))) =
          some (LossEntry.range first last).numbers := by
        rw [hfirst, Nat.add_sub_cancel, Nat.mul_add, hlastWord]
        exact nakRange_valid hlast hfuel
      rw [nakIds_range k (by omega) (by omega), hrange, Option.bind_some, htail]
      rfl

/-- **Loss lists are decoded exactly.** A NAK with an encoded loss list reports
    each number that the list denotes, in the list's order, and nothing else, and
    goes to the caller as it is, whatever lies behind it in the buffer. -/
theorem nak_decodes (s : State) (c : Conn) (ts : ℤ) (ret : ℕ → ℤ) (header : Bytes)
    (hheader : header.length = 16) (htype : be16 (mem header) 0 = srtTypeNak)
    (entries : List LossEntry) (hvalid : ∀ e ∈ entries, e.Valid) {buf : Mem}
    (hbuf : ∀ i, i < (nakFrame header entries).length → buf i = mem (nakFrame header entries) i)
    {fuel : ℕ} (hfuel : 2 ^ 31 < fuel) :
    datagramCalls c.ref buf (nakFrame header entries).length ts fuel =
        .link c.ref (.heard ts) :: (entries.flatMap LossEntry.numbers).map .registerNak ∧
      handleSrtlaData s c buf (nakFrame header entries).length ts ret fuel =
        some ({ s.putConn { c with lastRcvd := ts } with
            conns := (entries.flatMap LossEntry.numbers).foldl (fun conns id => registerNak id conns)
              (s.putConn { c with lastRcvd := ts }).conns },
          [Effect.caller s.srtAddr (nakFrame header entries)]) := by
  have hlen : (nakFrame header entries).length =
      16 + 4 * (entries.flatMap LossEntry.encode).length := by
    rw [nakFrame, List.length_append, length_putWords, hheader]
  have hsrt : getSrtType buf (nakFrame header entries).length = srtTypeNak := by
    unfold getSrtType
    rw [if_neg (by omega), be16_congr (hbuf 0 (by omega)) (hbuf 1 (by omega)), nakFrame,
      be16_append_left _ _ (by omega), htype]
  have hwords : words buf (4 * 4) (entries.flatMap LossEntry.encode).length =
      entries.flatMap LossEntry.encode := by
    rw [words_congr fun i hi => hbuf i (by omega), show 4 * 4 = header.length from hheader.symm]
    refine words_putWords header fun w hw => ?_
    obtain ⟨e, he, hw⟩ := List.mem_flatMap.mp hw
    exact LossEntry.encode_lt (hvalid e he) w hw
  have hids : nakIds fuel buf (nakFrame header entries).length
      ((nakFrame header entries).length / 4 : ℤ).toNat 4 =
        some (entries.flatMap LossEntry.numbers) :=
    nakIds_encode hfuel hvalid (by omega) (by omega) hwords
  have hwhole : window buf 0 (nakFrame header entries).length = nakFrame header entries := by
    have hframe := window_append [] (nakFrame header entries) []
    rw [List.append_nil, List.nil_append] at hframe
    refine (window_congr fun i hi => ?_).trans hframe
    rw [Nat.zero_add]
    exact hbuf i hi
  refine ⟨?_, ?_⟩
  · unfold datagramCalls frameCalls
    rw [if_neg, hsrt, if_neg (by decide), if_pos rfl, hids]
    · rfl
    · rw [hsrt]
      rintro (hn | hngp | hreg2)
      · omega
      · exact absurd hngp (by decide)
      · exact absurd hreg2 (by decide)
  · rw [handleSrtlaData_nak hsrt, hids, Option.map_some, Int.toNat_natCast, hwhole]

/-- A number, and the two last numbers of 31 bits as a range. -/
theorem nak_decodes_top :
    datagramCalls 0 (mem (nakFrame nakHeader [.single 7, .range 2147483646 2147483647])) 28 100 (2 ^ 31 + 1) =
      [.link 0 (.heard 100), .registerNak 7, .registerNak 2147483646, .registerNak 2147483647] :=
  (nak_decodes State.zero oneLinkConn 100 (fun _ => 0) nakHeader (by decide) (by decide)
    [.single 7, .range 2147483646 2147483647] (by decide) (fun _ _ => rfl)
    (Nat.lt_succ_self _)).1

end Srtla.Sender
