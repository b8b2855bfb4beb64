/-
# Doublewords in byte memory

A 32-bit word lies in memory with its low byte first.  Addresses wrap, so a
word may straddle the end of the address space; `store32` is therefore written
in the distance from the word's address.
-/

import DrewOS.Memory.Bytes

namespace ByteMem
namespace Mem

/-- The doubleword at `a`. -/
def load32 (m : Mem) (a : Addr) : Dword :=
  BitVec.ofNat 32 ((m a).toNat + 2 ^ 8 * (m (a + 1#32)).toNat + 2 ^ 16 * (m (a + 2#32)).toNat +
    2 ^ 24 * (m (a + 3#32)).toNat)

/-- Store `v` at `a`. -/
def store32 (m : Mem) (a : Addr) (v : Dword) : Mem := fun b =>
  if (b - a).toNat < 4 then BitVec.ofNat 8 (v.toNat / 256 ^ (b - a).toNat) else m b

/-- The bytes of a stored doubleword, the lowest first. -/
theorem store32_byte (m : Mem) (a : Addr) (v : Dword) {i : ℕ} (hi : i < 4) :
    m.store32 a v (a + BitVec.ofNat 32 i) = BitVec.ofNat 8 (v.toNat / 256 ^ i) := by
  have h : (a + BitVec.ofNat 32 i - a).toNat = i := by bv_omega
  rw [store32, h, if_pos hi]

/-- **A stored doubleword is read back.** -/
theorem load32_store32 (m : Mem) (a : Addr) (v : Dword) : (m.store32 a v).load32 a = v := by
  have h0 := store32_byte m a v (i := 0) (by omega)
  have h1 := store32_byte m a v (i := 1) (by omega)
  have h2 := store32_byte m a v (i := 2) (by omega)
  have h3 := store32_byte m a v (i := 3) (by omega)
  have hv := v.isLt
  rw [BitVec.add_zero] at h0
  apply BitVec.eq_of_toNat_eq
  rw [load32, h0, h1, h2, h3]
  simp only [BitVec.toNat_ofNat]
  omega

/-- Bytes outside the doubleword are kept. -/
theorem store32_of_ge (m : Mem) (v : Dword) {a b : Addr} (h : 4 ≤ (b - a).toNat) :
    m.store32 a v b = m b :=
  if_neg (Nat.not_lt.2 h)

/-- A doubleword is determined by its four bytes. -/
theorem load32_congr {m m' : Mem} {a : Addr}
    (h : ∀ i < 4, m (a + BitVec.ofNat 32 i) = m' (a + BitVec.ofNat 32 i)) :
    m.load32 a = m'.load32 a := by
  have h0 := h 0 (by omega)
  have h1 := h 1 (by omega)
  have h2 := h 2 (by omega)
  have h3 := h 3 (by omega)
  rw [BitVec.add_zero] at h0
  unfold load32
  rw [h0, h1, h2, h3]

end Mem

/-! ### Single bits -/

/-- `v` with bit `i` set to `b`. -/
def putBit {w : ℕ} (v : BitVec w) (i : ℕ) (b : Bool) : BitVec w :=
  if b then v ||| BitVec.twoPow w i else v &&& ~~~ BitVec.twoPow w i

/-- Only the bit that is put changes. -/
theorem getLsbD_putBit {w : ℕ} (v : BitVec w) {i : ℕ} (hi : i < w) (b : Bool) (j : ℕ) :
    (putBit v i b).getLsbD j = if j = i then b else v.getLsbD j := by
  have hp : (BitVec.twoPow w i).getLsbD j = decide (j = i) := by
    rw [BitVec.getLsbD_twoPow]
    by_cases h : j = i
    · simp [h, hi]
    · simp [h, Ne.symm h]
  unfold putBit
  rcases b with _ | _
  · simp only [Bool.false_eq_true, if_false, BitVec.getLsbD_and, BitVec.getLsbD_not, hp]
    by_cases h : j = i
    · simp [h]
    · by_cases hj : j < w
      · simp [h, hj]
      · simp [h, BitVec.getLsbD_of_ge v j (Nat.le_of_not_lt hj)]
  · simp only [if_true, BitVec.getLsbD_or, hp]
    by_cases h : j = i <;> simp [h]

end ByteMem
