/-
# What the checksums detect

`validate_checksum` and `validate_rsdp` add up bytes in 8 bits, as signed characters.
As a number that is the sum of the bytes modulo 256 (`toNat_byteSum`), every one of
them once, so that one changed byte changes it (`corruption_detected`).
-/

import DrewOS.Acpi.Startup
import Mathlib.Algebra.BigOperators.Intervals

namespace DrewOS
namespace Acpi

open ByteMem Effect

/-! ### The sum -/

/-- `checksum += *(char *)p`: both operands are promoted to `int`, with the sign of the
character, and the sum is truncated. -/
def accumulate (checksum b : Byte) : Byte := (checksum.setWidth 32 + b.signExtend 32).setWidth 8

/-- The sign makes no difference. -/
theorem accumulate_eq (checksum b : Byte) : accumulate checksum b = checksum + b := by
  have hsigned : (b.signExtend 32).setWidth 8 = b := by
    refine BitVec.eq_of_getLsbD_eq fun i hi => ?_
    rw [BitVec.getLsbD_setWidth, BitVec.getLsbD_signExtend]
    simp [hi, show i < 32 by omega]
  have hunsigned : (checksum.setWidth 32).setWidth 8 = checksum := by
    rw [BitVec.setWidth_setWidth_of_le _ (by decide), BitVec.setWidth_eq]
  rw [accumulate, BitVec.setWidth_add _ _ (by decide), hsigned, hunsigned]

/-- The loop of `validate_checksum` adds the bytes as signed characters. -/
theorem sumBytes_succ (n : ℕ) (a : Addr) (checksum : Byte) :
    sumBytes (n + 1) a checksum =
      loadByte a >>= fun b => sumBytes n (a + 1) (accumulate checksum b) := by
  simp only [accumulate_eq]
  rfl

/-- The sum of the `n` bytes from `a` as a number. -/
def sumAt (m : Mem) (n : ℕ) (a : Addr) : ℕ :=
  ∑ i ∈ Finset.range n, (m (a + BitVec.ofNat 32 i)).toNat

/-- The sum from the first byte on. -/
theorem sumAt_succ (m : Mem) (n : ℕ) (a : Addr) :
    sumAt m (n + 1) a = sumAt m n (a + 1) + (m a).toNat := by
  have hrest : ∑ i ∈ Finset.range n, (m (a + BitVec.ofNat 32 (i + 1))).toNat =
      sumAt m n (a + 1) :=
    Finset.sum_congr rfl fun i _ => by rw [← add_one_add]
  rw [sumAt, Finset.sum_range_succ', hrest, add_ofNat_zero]

/-- **The checksum is the sum of the bytes modulo 256.** -/
theorem toNat_byteSum (m : Mem) (n : ℕ) (a : Addr) :
    (byteSum m n a).toNat = sumAt m n a % 256 := by
  induction n generalizing a with
  | zero => rfl
  | succ n ih =>
    rw [byteSum, BitVec.toNat_add, ih, sumAt_succ]
    omega

/-- The 8-bit sum is zero if and only if the sum of the bytes is a multiple of 256. -/
theorem byteSum_eq_zero_iff (m : Mem) (n : ℕ) (a : Addr) :
    byteSum m n a = 0 ↔ sumAt m n a % 256 = 0 := by
  rw [← toNat_byteSum]
  exact ⟨fun h => congrArg BitVec.toNat h, fun h => BitVec.eq_of_toNat_eq h⟩

/-- A table is accepted if and only if its bytes add up to a multiple of 256. -/
theorem checksumValid_iff (m : Mem) (header : Addr) :
    checksumValid m header = true ↔
      sumAt m (m.load32 (header + LENGTH)).toNat header % 256 = 0 := by
  rw [checksumValid, beq_iff_eq, byteSum_eq_zero_iff]

/-! ### One changed byte -/

/-- `m` and `m'` differ at `a` and nowhere else. -/
structure DiffersAt (m m' : Mem) (a : Addr) : Prop where
  changed : m' a ≠ m a
  same : ∀ b, b ≠ a → m' b = m b

variable {m m' : Mem} {t : Addr} {k : ℕ}

/-- Tables that differ in one byte agree at every other offset. -/
theorem DiffersAt.same_offset (h : DiffersAt m m' (t + BitVec.ofNat 32 k)) (hk : k < 2 ^ 32)
    {i : ℕ} (hi : i < 2 ^ 32) (hne : i ≠ k) :
    m' (t + BitVec.ofNat 32 i) = m (t + BitVec.ofNat 32 i) :=
  h.same _ fun he => hne (add_ofNat_inj hi hk he)

/-- **The sum changes**, even modulo 256. -/
theorem DiffersAt.sumAt_ne (h : DiffersAt m m' (t + BitVec.ofNat 32 k)) {n : ℕ} (hk : k < n)
    (hn : n ≤ 2 ^ 32) : sumAt m' n t % 256 ≠ sumAt m n t % 256 := by
  have hmem : k ∈ Finset.range n := Finset.mem_range.2 hk
  have hrest : ∑ i ∈ (Finset.range n).erase k, (m' (t + BitVec.ofNat 32 i)).toNat =
      ∑ i ∈ (Finset.range n).erase k, (m (t + BitVec.ofNat 32 i)).toNat := by
    refine Finset.sum_congr rfl fun i hi => ?_
    obtain ⟨hne, hi⟩ := Finset.mem_erase.1 hi
    have hlt := Finset.mem_range.1 hi
    rw [h.same_offset (by omega) (by omega) hne]
  have hchanged : (m' (t + BitVec.ofNat 32 k)).toNat ≠ (m (t + BitVec.ofNat 32 k)).toNat :=
    fun he => h.changed (BitVec.eq_of_toNat_eq he)
  have hlt := (m (t + BitVec.ofNat 32 k)).isLt
  have hlt' := (m' (t + BitVec.ofNat 32 k)).isLt
  unfold sumAt
  rw [← Finset.add_sum_erase _ _ hmem, ← Finset.add_sum_erase _ _ hmem, hrest]
  omega

/-- The length of a table is that before the change, if none of its own bytes is changed. -/
theorem DiffersAt.length_eq (h : DiffersAt m m' (t + BitVec.ofNat 32 k)) (hk : k < 2 ^ 32)
    (hout : k < 4 ∨ 8 ≤ k) : m'.load32 (t + LENGTH) = m.load32 (t + LENGTH) := by
  refine Mem.load32_congr fun i hi => ?_
  have hoffset : t + LENGTH + BitVec.ofNat 32 i = t + BitVec.ofNat 32 (4 + i) :=
    add_ofNat_add t 4 i
  rw [hoffset]
  exact h.same_offset hk (by omega) (by omega)

/-- A table that was accepted is rejected. -/
theorem DiffersAt.checksumValid_eq (h : DiffersAt m m' (t + BitVec.ofNat 32 k))
    (hk : k < (m.load32 (t + LENGTH)).toNat) (hout : k < 4 ∨ 8 ≤ k)
    (hvalid : checksumValid m t = true) : checksumValid m' t = false := by
  have hlt := (m.load32 (t + LENGTH)).isLt
  have hsum := h.sumAt_ne hk hlt.le
  refine Bool.eq_false_of_not_eq_true fun hvalid' => ?_
  rw [checksumValid_iff] at hvalid hvalid'
  rw [h.length_eq (by omega) hout] at hvalid'
  exact hsum (hvalid'.trans hvalid.symm)

/-- So is a root pointer. -/
theorem DiffersAt.rsdpValid_eq (h : DiffersAt m m' (t + BitVec.ofNat 32 k)) (hk : k < 20)
    (hvalid : rsdpValid m t = true) : rsdpValid m' t = false := by
  have hsum := h.sumAt_ne hk (by decide)
  refine Bool.eq_false_of_not_eq_true fun hvalid' => ?_
  rw [rsdpValid, Bool.and_eq_true, beq_iff_eq, beq_iff_eq, byteSum_eq_zero_iff]
    at hvalid hvalid'
  exact hsum (hvalid'.2.trans hvalid.2.symm)

section Run

variable {ε ε' : Type}

/-- **One corrupted byte is detected.**  Of two memories that differ in one byte, if it is
in an accepted table, and not in the length of the table, or in an accepted root
pointer, the other table or root pointer is rejected; whatever else is different
between the two machines. -/
theorem corruption_detected (b : Bus ε) (b' : Bus ε') (w : World ε) (w' : World ε') (t : Addr)
    (k : ℕ) (hdiff : DiffersAt w.mem w'.mem (t + BitVec.ofNat 32 k)) :
    (k < (w.mem.load32 (t + LENGTH)).toNat → k < 4 ∨ 8 ≤ k →
      Yields b (validateChecksum t) w true → Yields b' (validateChecksum t) w' false) ∧
    (k < 20 → Yields b (validateRsdp t) w true → Yields b' (validateRsdp t) w' false) := by
  constructor
  · intro hk hout hrun
    have hvalid := (yields_validateChecksum t w).unique hrun
    rw [← hdiff.checksumValid_eq hk hout hvalid]
    exact yields_validateChecksum t w'
  · intro hk hrun
    have hvalid := (yields_validateRsdp t w).unique hrun
    rw [← hdiff.rsdpValid_eq hk hvalid]
    exact yields_validateRsdp t w'

end Run

/-- A table of 16 bytes at `0x1000`, and the same with its ninth byte changed. -/
def soundTable : Mem := image [(0x1000, [0xf0, 0, 0, 0, 16])]

def corruptTable : Mem := Function.update soundTable (0x1000 + BitVec.ofNat 32 8) 1

/-- The two tables differ in the ninth byte. -/
theorem differsAt_corruptTable :
    DiffersAt soundTable corruptTable (0x1000 + BitVec.ofNat 32 8) :=
  ⟨by decide, fun _ hb => Function.update_of_ne hb ..⟩

/-- A root pointer at `0x1000`, and the same with its thirteenth byte changed. -/
def soundPointer : Mem :=
  image [(0x1000, [0x52, 0x53, 0x44, 0x20, 0x50, 0x54, 0x52, 0x20, 0xe1])]

def corruptPointer : Mem := Function.update soundPointer (0x1000 + BitVec.ofNat 32 12) 1

/-- The two pointers differ in one byte. -/
theorem differsAt_corruptPointer :
    DiffersAt soundPointer corruptPointer (0x1000 + BitVec.ofNat 32 12) :=
  ⟨by decide, fun _ hb => Function.update_of_ne hb ..⟩

/-- Both are rejected. -/
theorem corruption_detected_table :
    Yields Bus.silent (validateChecksum 0x1000) (.boot () emptyIdt corruptTable) false ∧
      Yields Bus.silent (validateRsdp 0x1000) (.boot () emptyIdt corruptPointer) false := by
  have hvalid : checksumValid soundTable 0x1000 = true := by decide
  have hrun := yields_validateChecksum (b := Bus.silent) 0x1000 (.boot () emptyIdt soundTable)
  have hvalid' : rsdpValid soundPointer 0x1000 = true := by decide
  have hrun' := yields_validateRsdp (b := Bus.silent) 0x1000 (.boot () emptyIdt soundPointer)
  constructor
  · refine (corruption_detected Bus.silent Bus.silent (.boot () emptyIdt soundTable)
      (.boot () emptyIdt corruptTable) 0x1000 8 differsAt_corruptTable).1 (by decide) (by decide) ?_
    rw [← hvalid]
    exact hrun
  · refine (corruption_detected Bus.silent Bus.silent (.boot () emptyIdt soundPointer)
      (.boot () emptyIdt corruptPointer) 0x1000 12 differsAt_corruptPointer).2 (by decide) ?_
    rw [← hvalid']
    exact hrun'

end Acpi
end DrewOS
