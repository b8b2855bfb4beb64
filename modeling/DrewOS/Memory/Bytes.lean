/-
# Byte-addressed memory of a 32-bit machine

An address is a 32-bit number and addresses wrap, as pointer arithmetic on the
machine does.  A memory is a total map from addresses to bytes; words in it are
little-endian and need not be aligned.  `Ram` adds the list of the addresses
read or written so far, for statements about which bytes a routine touches.

`forUp n body` is the C loop `for (i = 0; i < n; i++) body(i)`, and
`forUp_induct` its invariant rule.
-/

import Mathlib.Algebra.Order.Group.Nat
import Mathlib.Logic.Function.Basic
import Mathlib.Tactic.Common

namespace ByteMem

abbrev Byte := BitVec 8

abbrev Word := BitVec 16

abbrev Dword := BitVec 32

abbrev Addr := BitVec 32

/-- A memory image. -/
abbrev Mem := Addr → Byte

/-- The bytes of a string. -/
def ascii (s : String) : List Byte := s.toList.map fun c => BitVec.ofNat 8 c.toNat

/-! ### Addresses -/

/-- Offsets from one base are the same address only if they are the same number. -/
theorem add_ofNat_inj {p : Addr} {i j : ℕ} (hi : i < 2 ^ 32) (hj : j < 2 ^ 32)
    (h : p + BitVec.ofNat 32 i = p + BitVec.ofNat 32 j) : i = j := by
  have h' := congrArg BitVec.toNat h
  simp only [BitVec.toNat_add, BitVec.toNat_ofNat] at h'
  omega

/-- Offsets add up. -/
theorem add_ofNat_add (p : Addr) (i j : ℕ) :
    p + BitVec.ofNat 32 i + BitVec.ofNat 32 j = p + BitVec.ofNat 32 (i + j) := by
  rw [BitVec.ofNat_add, BitVec.add_assoc]

theorem add_ofNat_zero (p : Addr) : p + BitVec.ofNat 32 0 = p := BitVec.add_zero p

theorem zero_add_ofNat (i : ℕ) : (0 : Addr) + BitVec.ofNat 32 i = BitVec.ofNat 32 i :=
  BitVec.zero_add _

/-- Without a wrap, the address is the sum. -/
theorem toNat_add_ofNat {p : Addr} {i : ℕ} (h : p.toNat + i < 2 ^ 32) :
    (p + BitVec.ofNat 32 i).toNat = p.toNat + i := by
  rw [BitVec.toNat_add, BitVec.toNat_ofNat, Nat.mod_eq_of_lt (show i < 2 ^ 32 by omega),
    Nat.mod_eq_of_lt h]

/-! ### Counted loops -/

/-- `for (i = 0; i < n; i++) s = body(i, s)`. -/
def forUp {σ : Type} (n : ℕ) (body : ℕ → σ → σ) (s : σ) : σ :=
  n.fold (fun i _ t => body i t) s

@[simp] theorem forUp_zero {σ : Type} (body : ℕ → σ → σ) (s : σ) : forUp 0 body s = s := rfl

theorem forUp_succ {σ : Type} (n : ℕ) (body : ℕ → σ → σ) (s : σ) :
    forUp (n + 1) body s = body n (forUp n body s) := by
  simp [forUp]

/-- **The invariant rule of a counted loop.** -/
theorem forUp_induct {σ : Type} {n : ℕ} {body : ℕ → σ → σ} {s : σ} (I : ℕ → σ → Prop)
    (h0 : I 0 s) (hstep : ∀ i t, i < n → I i t → I (i + 1) (body i t)) :
    I n (forUp n body s) := by
  induction n with
  | zero => exact h0
  | succ n ih =>
    rw [forUp_succ]
    exact hstep n _ (Nat.lt_succ_self n) (ih fun i t hi => hstep i t (Nat.lt_succ_of_lt hi))

/-- **A loop over indices** that makes one round for each of the first `n` and ends at
the next one is a counted loop. -/
theorem loop_eq_forUp {ι σ : Type} {loop : ι → σ → σ} {index : ℕ → ι} {n : ℕ}
    {body : ℕ → σ → σ} (hround : ∀ k < n, ∀ s, loop (index k) s = loop (index (k + 1)) (body k s))
    (hend : ∀ s, loop (index n) s = s) (s : σ) : loop (index 0) s = forUp n body s := by
  have hrounds : ∀ k ≤ n, loop (index 0) s = loop (index k) (forUp k body s) := by
    intro k hk
    induction k with
    | zero => rfl
    | succ k ih => rw [ih (by omega), hround k (by omega), forUp_succ]
  rw [hrounds n le_rfl, hend]

/-! ### Memory that remembers which bytes were touched -/

/-- A memory together with every address read or written so far. -/
structure Ram where
  bytes : Mem
  touched : List Addr

namespace Ram

/-- Store a byte. -/
def write (r : Ram) (a : Addr) (v : Byte) : Ram where
  bytes := Function.update r.bytes a v
  touched := r.touched ++ [a]

/-- `*dst = *src`. -/
def move (r : Ram) (src dst : Addr) : Ram where
  bytes := Function.update r.bytes dst (r.bytes src)
  touched := r.touched ++ [src, dst]

@[simp] theorem write_bytes_self (r : Ram) (a : Addr) (v : Byte) : (r.write a v).bytes a = v :=
  Function.update_self ..

/-- A write changes no other byte. -/
@[simp] theorem write_bytes_ne (r : Ram) {a b : Addr} (v : Byte) (h : b ≠ a) :
    (r.write a v).bytes b = r.bytes b :=
  Function.update_of_ne h ..

@[simp] theorem write_touched (r : Ram) (a : Addr) (v : Byte) :
    (r.write a v).touched = r.touched ++ [a] := rfl

@[simp] theorem move_bytes_self (r : Ram) (src dst : Addr) :
    (r.move src dst).bytes dst = r.bytes src :=
  Function.update_self ..

/-- A move changes no other byte than its destination. -/
@[simp] theorem move_bytes_ne (r : Ram) {src dst b : Addr} (h : b ≠ dst) :
    (r.move src dst).bytes b = r.bytes b :=
  Function.update_of_ne h ..

@[simp] theorem move_touched (r : Ram) (src dst : Addr) :
    (r.move src dst).touched = r.touched ++ [src, dst] := rfl

end Ram
end ByteMem
