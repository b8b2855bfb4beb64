/-
# `copy_memory`

`src/kernel/util.c`.  The loop runs until the source pointer equals `src + n`,
so it is a recursion on the distance left, modulo `2^32`.
-/

import DrewOS.Memory.Bytes

namespace DrewOS

open ByteMem

/-- `while (src != end) { *(dst++) = *(src++); }` -/
def copyMemoryLoop (stop src dst : Addr) (r : Ram) : Ram :=
  if src = stop then r else copyMemoryLoop stop (src + 1) (dst + 1) (r.move src dst)
termination_by (stop - src).toNat
decreasing_by bv_omega

/-- `copy_memory(src, dst, n)`. -/
def copyMemory (src dst : Addr) (n : Word) (r : Ram) : Ram :=
  copyMemoryLoop (src + n.setWidth 32) src dst r

/-- The loop stops after exactly `n` moves. -/
theorem copyMemory_eq (src dst : Addr) (n : Word) (r : Ram) :
    copyMemory src dst n r = forUp n.toNat
      (fun i t => t.move (src + BitVec.ofNat 32 i) (dst + BitVec.ofNat 32 i)) r := by
  have hn : n.toNat < 2 ^ 16 := n.isLt
  have hstop : src + n.setWidth 32 = src + BitVec.ofNat 32 n.toNat := by
    rw [BitVec.ofNat_toNat]
  have hloop := @loop_eq_forUp (Addr × Addr) Ram
    (fun p => copyMemoryLoop (src + n.setWidth 32) p.1 p.2)
    (fun k => (src + BitVec.ofNat 32 k, dst + BitVec.ofNat 32 k)) n.toNat
    (fun i t => t.move (src + BitVec.ofNat 32 i) (dst + BitVec.ofNat 32 i)) ?_ ?_ r
  · rwa [add_ofNat_zero, add_ofNat_zero] at hloop
  · intro k hk t
    have hne : src + BitVec.ofNat 32 k ≠ src + n.setWidth 32 := fun h => by
      rw [hstop] at h
      have := add_ofNat_inj (by omega) (by omega) h
      omega
    rw [copyMemoryLoop, if_neg hne, ← add_ofNat_add src k 1, ← add_ofNat_add dst k 1]
    rfl
  · intro t
    rw [copyMemoryLoop, if_pos hstop.symm]

/-- What `copy_memory` has done to `r` when it has left it as `r'`. -/
structure Copied (src dst : Addr) (n : ℕ) (r r' : Ram) : Prop where
  copied : ∀ i < n, r'.bytes (dst + BitVec.ofNat 32 i) = r.bytes (src + BitVec.ofNat 32 i)
  frame : ∀ a, (∀ i < n, a ≠ dst + BitVec.ofNat 32 i) → r'.bytes a = r.bytes a
  touched : ∀ a ∈ r'.touched, a ∈ r.touched ∨
    ∃ i < n, a = src + BitVec.ofNat 32 i ∨ a = dst + BitVec.ofNat 32 i

/-- **`copy_memory` is a forward move.**  When the destination starts at or
below the source, or beyond its end, every source byte is read before it is
overwritten. -/
theorem copyMemory_copied (src dst : Addr) (n : Word) (hs : src.toNat + n.toNat ≤ 2 ^ 32)
    (hd : dst.toNat + n.toNat ≤ 2 ^ 32)
    (h : dst.toNat ≤ src.toNat ∨ src.toNat + n.toNat ≤ dst.toNat) (r : Ram) :
    Copied src dst n.toNat r (copyMemory src dst n r) := by
  have hn : n.toNat < 2 ^ 16 := n.isLt
  rw [copyMemory_eq]
  refine forUp_induct (fun k t => Copied src dst k r t)
    ⟨fun i hi => absurd hi (Nat.not_lt_zero i), fun _ _ => rfl, fun a ha => .inl ha⟩ ?_
  intro k t hk hI
  -- the byte read now has not been written by the first `k` moves
  have hunread : t.bytes (src + BitVec.ofNat 32 k) = r.bytes (src + BitVec.ofNat 32 k) := by
    refine hI.frame _ fun i hi he => ?_
    have := congrArg BitVec.toNat he
    rw [toNat_add_ofNat (by omega), toNat_add_ofNat (by omega)] at this
    omega
  refine ⟨fun i hi => ?_, fun a ha => ?_, fun a ha => ?_⟩
  · rcases Nat.lt_succ_iff_lt_or_eq.1 hi with hlt | rfl
    · have hne : dst + BitVec.ofNat 32 i ≠ dst + BitVec.ofNat 32 k := fun he => by
        have := add_ofNat_inj (by omega) (by omega) he
        omega
      rw [Ram.move_bytes_ne _ hne, hI.copied i hlt]
    · rw [Ram.move_bytes_self, hunread]
  · rw [Ram.move_bytes_ne _ (ha k (Nat.lt_succ_self k)),
      hI.frame a fun i hi => ha i (Nat.lt_succ_of_lt hi)]
  · simp only [Ram.move_touched, List.mem_append, List.mem_cons, List.not_mem_nil, or_false] at ha
    rcases ha with ha | ha
    · exact (hI.touched a ha).imp_right fun ⟨i, hi, h⟩ => ⟨i, Nat.lt_succ_of_lt hi, h⟩
    · exact .inr ⟨k, Nat.lt_succ_self k, ha⟩

/-- **`copy_memory` in numbers.**  For ranges that do not wrap around, of any length and
with any overlap that a forward move allows, the destination holds what the source
held before the call, and no other byte is changed. -/
theorem copyMemory_moves (src dst : Addr) (n : Word) (hs : src.toNat + n.toNat ≤ 2 ^ 32)
    (hd : dst.toNat + n.toNat ≤ 2 ^ 32)
    (h : dst.toNat ≤ src.toNat ∨ src.toNat + n.toNat ≤ dst.toNat) (r : Ram) :
    (∀ i < n.toNat, (copyMemory src dst n r).bytes (dst + BitVec.ofNat 32 i) =
      r.bytes (src + BitVec.ofNat 32 i)) ∧
    ∀ a : Addr, a.toNat < dst.toNat ∨ dst.toNat + n.toNat ≤ a.toNat →
      (copyMemory src dst n r).bytes a = r.bytes a := by
  have hcopied := copyMemory_copied src dst n hs hd h r
  refine ⟨hcopied.copied, fun a ha => hcopied.frame a fun i hi he => ?_⟩
  rw [he, toNat_add_ofNat (by omega)] at ha
  omega

/-- A move by two bytes over an overlap of three. -/
theorem copyMemory_moves_overlap :
    (copyMemory 0x1002 0x1000 5 ⟨fun a => a.setWidth 8, []⟩).bytes (0x1000 + BitVec.ofNat 32 4) =
      6 :=
  (copyMemory_moves 0x1002 0x1000 5 (by decide) (by decide) (.inl (by decide))
    ⟨fun a => a.setWidth 8, []⟩).1 4 (by decide)

end DrewOS
