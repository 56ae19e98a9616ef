import Mathlib.Data.List.GetD
import Mathlib.Data.List.Range
import Mathlib.Tactic

/-!
# Bytes, buffers and big-endian words

Byte strings are `Bytes := List UInt8`. Memory reached through a pointer is a
function `Mem := ℕ → UInt8`: it has a value at every offset, also past the end
of the object, so a model can say what a read of stale bytes returns. A byte
string used as memory is `mem b`, which is zero past its end.

* `be16`, `be32`: big-endian loads; `putBe16`, `putBe32`: the stores.
  `be16_putBe16` and `be32_putBe32` are the round trips.
* `putWords` and `words`: a sequence of 32-bit words, written and read.
* `window m off len`: the `len` bytes at offset `off` (`memcpy` out of memory).
* `Block n`: a byte array of fixed size `n`; `readBlock` reads one from memory.
* `compareBytes`: the branch-free comparison loop `diff |= a[i] ^ b[i]`;
  `compareBytes_eq_zero_iff` says that it decides equality of the two windows.
-/

namespace Lib

abbrev Byte := UInt8
abbrev Bytes := List Byte

/-- Memory behind a pointer. -/
abbrev Mem := ℕ → Byte

/-- A byte string as memory. -/
def mem (b : Bytes) : Mem := fun i => b.getD i 0

theorem mem_append_left {p : Bytes} (r : Bytes) {i : ℕ} (h : i < p.length) :
    mem (p ++ r) i = mem p i :=
  List.getD_append _ _ _ _ h

theorem mem_append_right (p r : Bytes) (i : ℕ) : mem (p ++ r) (p.length + i) = mem r i := by
  simp only [mem]
  rw [List.getD_append_right _ _ _ _ (by omega), Nat.add_sub_cancel_left]

/-! ## Big-endian words -/

/-- `be16toh` of the two bytes at `off`. -/
def be16 (m : Mem) (off : ℕ) : ℕ := (m off).toNat * 256 + (m (off + 1)).toNat

/-- `be32toh` of the four bytes at `off`. -/
def be32 (m : Mem) (off : ℕ) : ℕ := be16 m off * 65536 + be16 m (off + 2)

/-- The memory image of `htobe16(v)`. -/
def putBe16 (v : ℕ) : Bytes := [UInt8.ofNat (v / 256), UInt8.ofNat v]

/-- The memory image of `htobe32(v)`. -/
def putBe32 (v : ℕ) : Bytes := putBe16 (v / 65536) ++ putBe16 v

@[simp] theorem length_putBe16 (v : ℕ) : (putBe16 v).length = 2 := rfl

@[simp] theorem length_putBe32 (v : ℕ) : (putBe32 v).length = 4 := rfl

theorem be16_lt (m : Mem) (off : ℕ) : be16 m off < 65536 := by
  have h1 := (m off).toNat_lt
  have h2 := (m (off + 1)).toNat_lt
  unfold be16; omega

theorem be32_lt (m : Mem) (off : ℕ) : be32 m off < 4294967296 := by
  have h1 := be16_lt m off
  have h2 := be16_lt m (off + 2)
  unfold be32; omega

theorem be16_congr {m m' : Mem} {off : ℕ} (h0 : m off = m' off) (h1 : m (off + 1) = m' (off + 1)) :
    be16 m off = be16 m' off := by
  unfold be16; rw [h0, h1]

theorem be16_append_right (p r : Bytes) (off : ℕ) :
    be16 (mem (p ++ r)) (p.length + off) = be16 (mem r) off := by
  unfold be16
  rw [mem_append_right, Nat.add_assoc, mem_append_right]

theorem be32_append_right (p r : Bytes) (off : ℕ) :
    be32 (mem (p ++ r)) (p.length + off) = be32 (mem r) off := by
  unfold be32
  rw [be16_append_right, Nat.add_assoc, be16_append_right]

theorem be16_append_left (p r : Bytes) {off : ℕ} (h : off + 2 ≤ p.length) :
    be16 (mem (p ++ r)) off = be16 (mem p) off :=
  be16_congr (mem_append_left r (by omega)) (mem_append_left r (by omega))

theorem be16_putBe16 {v : ℕ} (h : v < 65536) (r : Bytes) : be16 (mem (putBe16 v ++ r)) 0 = v := by
  simp only [be16, mem, putBe16, List.cons_append, List.nil_append, List.getD_cons_zero,
    List.getD_cons_succ, zero_add, UInt8.toNat_ofNat']
  omega

theorem be32_putBe32 {v : ℕ} (h : v < 4294967296) (r : Bytes) :
    be32 (mem (putBe32 v ++ r)) 0 = v := by
  simp only [be32, be16, mem, putBe32, putBe16, List.cons_append, List.nil_append,
    List.getD_cons_zero, List.getD_cons_succ, zero_add, UInt8.toNat_ofNat']
  omega

theorem be32_mem_putBe32 {v : ℕ} (h : v < 4294967296) : be32 (mem (putBe32 v)) 0 = v := by
  have := be32_putBe32 h []
  rwa [List.append_nil] at this

/-! ## Sequences of words -/

/-- The memory image of an array of 32-bit words. -/
def putWords (ws : List ℕ) : Bytes := ws.flatMap putBe32

/-- The `count` words of memory from `off` on. -/
def words (m : Mem) (off count : ℕ) : List ℕ := (List.range count).map fun i => be32 m (off + 4 * i)

theorem length_putWords (ws : List ℕ) : (putWords ws).length = 4 * ws.length := by
  induction ws with
  | nil => rfl
  | cons w ws ih =>
    rw [putWords, List.flatMap_cons, List.length_append, length_putBe32, ← putWords, ih,
      List.length_cons]
    omega

@[simp] theorem length_words (m : Mem) (off count : ℕ) : (words m off count).length = count := by
  simp [words]

theorem words_succ (m : Mem) (off count : ℕ) :
    words m off (count + 1) = be32 m off :: words m (off + 4) count := by
  rw [words, List.range_succ_eq_map, List.map_cons, List.map_map]
  refine congrArg _ (List.map_congr_left ?_)
  intro i _
  show be32 m (off + 4 * (i + 1)) = be32 m (off + 4 + 4 * i)
  congr 1
  omega

theorem words_congr {m m' : Mem} {off count : ℕ} (h : ∀ i, i < off + 4 * count → m i = m' i) :
    words m off count = words m' off count := by
  apply List.map_congr_left
  intro i hi
  have hi := List.mem_range.mp hi
  unfold be32
  rw [be16_congr (h _ (by omega)) (h _ (by omega)), be16_congr (h _ (by omega)) (h _ (by omega))]

/-- Reading back an array of words that stands after the bytes `p`. -/
theorem words_putWords (p : Bytes) {ws : List ℕ} (h : ∀ w ∈ ws, w < 4294967296) :
    words (mem (p ++ putWords ws)) p.length ws.length = ws := by
  induction ws generalizing p with
  | nil => rfl
  | cons w ws ih =>
    have hw := be32_append_right p (putBe32 w ++ putWords ws) 0
    rw [be32_putBe32 (h w List.mem_cons_self)] at hw
    have htail := ih (p ++ putBe32 w) fun x hx => h x (List.mem_cons_of_mem _ hx)
    rw [List.append_assoc, List.length_append, length_putBe32] at htail
    rw [List.length_cons, words_succ]
    exact congrArg₂ List.cons hw htail

/-! ## Windows -/

/-- The `len` bytes of memory from `off` on. -/
def window (m : Mem) (off len : ℕ) : Bytes := (List.range len).map fun i => m (off + i)

@[simp] theorem length_window (m : Mem) (off len : ℕ) : (window m off len).length = len := by
  simp [window]

/-- The bytes from `off` on, `n` of them at most. -/
theorem window_mem_min (buf : Bytes) (off n : ℕ) :
    window (mem buf) off (min n (buf.length - off)) = (buf.drop off).take n := by
  apply List.ext_getElem
  · rw [length_window, List.length_take, List.length_drop]
  · intro i h _
    rw [length_window] at h
    have hi : off + i < buf.length := by omega
    simp only [window, List.getElem_map, List.getElem_range, List.getElem_take, List.getElem_drop, mem]
    exact List.getD_eq_getElem buf 0 hi

theorem window_mem_drop (buf : Bytes) (off : ℕ) : window (mem buf) off (buf.length - off) = buf.drop off := by
  have h := window_mem_min buf off (buf.length - off)
  rwa [Nat.min_self, List.take_of_length_le List.length_drop.le] at h

theorem window_add (m : Mem) (off a b : ℕ) : window m off (a + b) = window m off a ++ window m (off + a) b := by
  simp only [window, List.range_add, List.map_append, List.map_map, Function.comp_def, Nat.add_assoc]

theorem window_congr {m m' : Mem} {off len : ℕ} (h : ∀ i, i < len → m (off + i) = m' (off + i)) :
    window m off len = window m' off len := by
  apply List.map_congr_left
  intro i hi
  exact h i (List.mem_range.mp hi)

/-- Reading back a block that stands after the bytes `p`. -/
theorem window_append (p b r : Bytes) : window (mem (p ++ (b ++ r))) p.length b.length = b := by
  apply List.ext_getElem
  · simp
  · intro i h1 h2
    simp only [window, List.getElem_map, List.getElem_range]
    rw [mem_append_right, mem_append_left r h2, mem, List.getD_eq_getElem _ _ h2]

theorem mem_window {m : Mem} {off len i : ℕ} (h : i < len) : mem (window m off len) i = m (off + i) := by
  rw [mem, List.getD_eq_getElem _ _ (by simpa using h)]
  simp [window]

theorem take_window (m : Mem) (off : ℕ) {k len : ℕ} (h : k ≤ len) :
    (window m off len).take k = window m off k := by
  simp only [window, ← List.map_take, List.take_range, Nat.min_eq_left h]

/-! ## Fixed-size arrays -/

/-- A byte array of size `n`. -/
@[ext] structure Block (n : ℕ) where
  bytes : Bytes
  length_eq : bytes.length = n
deriving DecidableEq

/-- The array filled with zeros. -/
def zeroBlock (n : ℕ) : Block n := ⟨List.replicate n 0, List.length_replicate⟩

instance {n : ℕ} : Inhabited (Block n) := ⟨zeroBlock n⟩

/-- `len` bytes of memory, read with `memcpy` or through a pointer. -/
def readBlock (m : Mem) (off len : ℕ) : Block len := ⟨window m off len, length_window m off len⟩

/-! ## Branch-free comparison -/

/-- The loop `for (i = 0; i < length; ++i) diff |= a[i] ^ b[i]`. -/
def compareLoop (a b : Mem) (length : ℕ) : Byte :=
  (List.range length).foldl (fun diff i => diff ||| (a i ^^^ b i)) 0

/-- `diff ? -1 : 0` after the loop. -/
def compareBytes (a b : Mem) (length : ℕ) : ℤ := if compareLoop a b length ≠ 0 then -1 else 0

theorem compareLoop_eq_zero_iff (a b : Mem) (length : ℕ) :
    compareLoop a b length = 0 ↔ ∀ i, i < length → a i = b i := by
  induction length with
  | zero => simp [compareLoop]
  | succ n ih =>
    simp only [compareLoop] at ih ⊢
    rw [List.range_succ, List.foldl_append, List.foldl_cons, List.foldl_nil,
      UInt8.or_eq_zero_iff, UInt8.xor_eq_zero_iff, ih]
    constructor
    · rintro ⟨h1, h2⟩ i hi
      rcases Nat.lt_succ_iff_lt_or_eq.mp hi with h | rfl
      · exact h1 i h
      · exact h2
    · intro h
      exact ⟨fun i hi => h i (by omega), h n (by omega)⟩

theorem compareBytes_eq_zero_iff (a b : Mem) (length : ℕ) :
    compareBytes a b length = 0 ↔ ∀ i, i < length → a i = b i := by
  rw [← compareLoop_eq_zero_iff]
  unfold compareBytes
  split_ifs with h
  · simpa using h
  · simpa using h

/-- On arrays of one size the comparison decides equality. -/
theorem compareBytes_block {n : ℕ} (a b : Block n) :
    compareBytes (mem a.bytes) (mem b.bytes) n = 0 ↔ a = b := by
  rw [compareBytes_eq_zero_iff]
  constructor
  · intro h
    apply Block.ext
    have ha := a.length_eq
    have hb := b.length_eq
    apply List.ext_getElem (by omega)
    intro i h1 h2
    have := h i (by omega)
    rwa [mem, mem, List.getD_eq_getElem _ _ h1, List.getD_eq_getElem _ _ h2] at this
  · rintro rfl i _
    rfl

end Lib
