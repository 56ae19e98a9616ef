import Srtla.Lib.Bytes

/-!
# Bytes written to memory

`store m off b` is memory after the bytes `b` were copied to the offset `off`. A word
that is read at the place where it was stored is the one that was stored; a word read
elsewhere is the one that was there before.
-/

namespace Lib

variable {m : Mem} {off off' : ℕ} {b : Bytes}

/-- `memcpy(m + off, b, sizeof(b))`. -/
def store (m : Mem) (off : ℕ) (b : Bytes) : Mem :=
  fun i => if off ≤ i ∧ i < off + b.length then mem b (i - off) else m i

theorem store_inside {i : ℕ} (h : i < b.length) : store m off b (off + i) = mem b i := by
  rw [store, if_pos (by omega), Nat.add_sub_cancel_left]

theorem store_outside {i : ℕ} (h : i < off ∨ off + b.length ≤ i) : store m off b i = m i := if_neg (by omega)

theorem be16_store_self {v : ℕ} (h : v < 65536) : be16 (store m off (putBe16 v)) off = v := by
  have hget := be16_putBe16 h []
  rw [List.append_nil] at hget
  have h0 : store m off (putBe16 v) (off + 0) = mem (putBe16 v) 0 := store_inside (by rw [length_putBe16]; decide)
  have h1 : store m off (putBe16 v) (off + 1) = mem (putBe16 v) 1 := store_inside (by rw [length_putBe16]; decide)
  rw [Nat.add_zero] at h0
  rwa [be16, h0, h1]

theorem be32_store_self {v : ℕ} (h : v < 4294967296) : be32 (store m off (putBe32 v)) off = v := by
  have hget := be32_mem_putBe32 h
  have hbyte : ∀ i, i < 4 → store m off (putBe32 v) (off + i) = mem (putBe32 v) i := fun i hi =>
    store_inside (by rwa [length_putBe32])
  have h0 := hbyte 0 (by decide)
  rw [Nat.add_zero] at h0
  rwa [be32, be16, be16, Nat.add_assoc, h0, hbyte 1 (by decide), hbyte 2 (by decide), hbyte 3 (by decide)]

theorem be16_store_apart (h : off' + 2 ≤ off ∨ off + b.length ≤ off') :
    be16 (store m off b) off' = be16 m off' :=
  be16_congr (store_outside (by omega)) (store_outside (by omega))

theorem be32_store_apart (h : off' + 4 ≤ off ∨ off + b.length ≤ off') :
    be32 (store m off b) off' = be32 m off' := by
  rw [be32, be16_store_apart (by omega), be16_store_apart (by omega), be32]

end Lib
