import Srtla.Lib.Bytes

/-!
# Buffers of which only the first bytes are set

`recvfrom` sets the first `n` bytes of a buffer and leaves stale ones behind
them. A function that looks only at what was received gives the same result on
any two buffers that `Agree n`. The lemmas say which reads do, and `fill` puts a
given byte in the place of the stale ones.
-/

namespace Lib

/-- The buffers agree on their first `n` bytes. -/
def Agree (n : ℤ) (m m' : Mem) : Prop := ∀ i : ℕ, (i : ℤ) < n → m i = m' i

variable {n : ℤ} {m m' m'' : Mem} {off len : ℕ} {b : Byte}

theorem Agree.symm (h : Agree n m m') : Agree n m' m := fun i hi => (h i hi).symm

theorem Agree.trans (h : Agree n m m') (h' : Agree n m' m'') : Agree n m m'' :=
  fun i hi => (h i hi).trans (h' i hi)

theorem Agree.be16 (h : Agree n m m') (off : ℕ) (hoff : (off : ℤ) + 2 ≤ n) : be16 m off = be16 m' off :=
  be16_congr (h off (by omega)) (h (off + 1) (by push_cast; omega))

theorem Agree.be32 (h : Agree n m m') (off : ℕ) (hoff : (off : ℤ) + 4 ≤ n) : be32 m off = be32 m' off := by
  unfold Lib.be32
  rw [h.be16 off (by omega), h.be16 (off + 2) (by push_cast; omega)]

theorem Agree.window (h : Agree n m m') (hlen : (off : ℤ) + len ≤ n) :
    window m off len = window m' off len :=
  window_congr fun i hi => h (off + i) (by push_cast; omega)

theorem Agree.readBlock (h : Agree n m m') (hlen : (off : ℤ) + len ≤ n) :
    readBlock m off len = readBlock m' off len :=
  Block.ext (h.window hlen)

/-! ## Choosing the bytes behind -/

/-- The first `n` bytes of the buffer, with `b` in every later place. -/
def fill (n : ℤ) (b : Byte) (m : Mem) : Mem := fun i => if (i : ℤ) < n then m i else b

theorem agree_fill (n : ℤ) (b : Byte) (m : Mem) : Agree n m (fill n b m) :=
  fun _ hi => (if_pos hi).symm

theorem Agree.fill (h : Agree n m m') (b : Byte) : fill n b m = fill n b m' := by
  funext i
  unfold Lib.fill
  split_ifs with hi
  · exact h i hi
  · rfl

/-- A byte that was not received may be any. -/
theorem agree_update (m : Mem) {i : ℕ} (hi : n ≤ i) (b : Byte) : Agree n m (Function.update m i b) := by
  intro j hj
  rw [Function.update_of_ne]
  rintro rfl
  omega

theorem be16_le (h : ∀ i, (m i).toNat ≤ (m' i).toNat) (off : ℕ) : be16 m off ≤ be16 m' off := by
  have h0 := h off
  have h1 := h (off + 1)
  unfold be16
  omega

theorem be32_le (h : ∀ i, (m i).toNat ≤ (m' i).toNat) (off : ℕ) : be32 m off ≤ be32 m' off := by
  have h0 := be16_le h off
  have h1 := be16_le h (off + 2)
  unfold be32
  omega

/-- Among the buffers with the same first bytes, the one filled with `0xFF` has
    the largest words. -/
theorem Agree.be32_le_fill (h : Agree n m m') (off : ℕ) :
    Lib.be32 m' off ≤ Lib.be32 (Lib.fill n 0xFF m) off := by
  rw [h.fill]
  refine be32_le (fun i => ?_) off
  unfold Lib.fill
  split_ifs
  · exact le_rfl
  · exact Nat.le_of_lt_succ (m' i).toNat_lt

theorem be32_mod (m : Mem) (off : ℕ) : be32 m off % 256 = (m (off + 3)).toNat := by
  have h := (m (off + 3)).toNat_lt
  unfold be32 be16
  rw [show off + 2 + 1 = off + 3 from rfl]
  omega

/-- Changing the last byte of a word. -/
theorem be32_update_last (m : Mem) (off : ℕ) (b : Byte) :
    be32 (Function.update m (off + 3) b) off + (m (off + 3)).toNat = be32 m off + b.toNat := by
  unfold be32 be16
  rw [show off + 2 + 1 = off + 3 from rfl, Function.update_self, Function.update_of_ne (by omega),
    Function.update_of_ne (by omega), Function.update_of_ne (by omega)]
  omega

end Lib
