/-
# Arithmetic with its steps

Machine arithmetic is exact only where the result fits.  `Calc` is a calculation
in words of `w` bits together with every step that it takes, operands included,
and `Exact` says that none of these steps wraps around, leaves the range of its
type or divides by zero.  What is calculated does not depend on the steps, and
`exact_bind_iff` takes a calculation apart.
-/

import Mathlib.Algebra.Order.Ring.Int
import Mathlib.Tactic.Common

namespace Arith

/-- The signed numbers of `w` bits. -/
def InRange (w : ℕ) (z : ℤ) : Prop := -2 ^ (w - 1) ≤ z ∧ z < 2 ^ (w - 1)

instance (w : ℕ) (z : ℤ) : Decidable (InRange w z) := inferInstanceAs (Decidable (_ ∧ _))

/-- A step of arithmetic with its operands.  `neg`, `add` and `sub` are signed, the
operations with a `U` are not; `toUnsigned` and `toSigned` convert between the two,
`narrow` and `narrowU` go to a type of `v` bits, and `digit` uses a signed number as
a digit in some base. -/
inductive Step (w : ℕ) where
  | neg (x : BitVec w)
  | add (x y : BitVec w)
  | sub (x y : BitVec w)
  | addU (x y : BitVec w)
  | subU (x y : BitVec w)
  | mulU (x y : BitVec w)
  | divU (x y : BitVec w)
  | modU (x y : BitVec w)
  | toUnsigned (x : BitVec w)
  | toSigned (x : BitVec w)
  | narrow (v : ℕ) (x : BitVec w)
  | narrowU (v : ℕ) (x : BitVec w)
  | digit (d base : BitVec w)

/-- The step has the result that it has on integers. -/
def Step.Exact {w : ℕ} : Step w → Prop
  | .neg x => InRange w (-x.toInt)
  | .add x y => InRange w (x.toInt + y.toInt)
  | .sub x y => InRange w (x.toInt - y.toInt)
  | .addU x y => x.toNat + y.toNat < 2 ^ w
  | .subU x y => y.toNat ≤ x.toNat
  | .mulU x y => x.toNat * y.toNat < 2 ^ w
  | .divU _ y => y.toNat ≠ 0
  | .modU _ y => y.toNat ≠ 0
  | .toUnsigned x => 0 ≤ x.toInt
  | .toSigned x => InRange w x.toNat
  | .narrow v x => InRange v x.toInt
  | .narrowU v x => 0 ≤ x.toInt ∧ x.toInt < 2 ^ v
  | .digit d base => 0 ≤ d.toInt ∧ d.toInt < base.toNat

instance Step.decidableExact {w : ℕ} : (s : Step w) → Decidable s.Exact
  | .neg _ | .add _ _ | .sub _ _ | .toSigned _ => inferInstanceAs (Decidable (InRange w _))
  | .addU _ _ | .mulU _ _ => inferInstanceAs (Decidable (_ < _))
  | .subU _ _ | .toUnsigned _ => inferInstanceAs (Decidable (_ ≤ _))
  | .divU _ _ | .modU _ _ => inferInstanceAs (Decidable (_ ≠ _))
  | .narrow v _ => inferInstanceAs (Decidable (InRange v _))
  | .narrowU _ _ | .digit _ _ => inferInstanceAs (Decidable (_ ∧ _))

/-- A calculation: its steps, and the result if there is one. -/
structure Calc (w : ℕ) (α : Type) where
  steps : List (Step w)
  result : Option α

namespace Calc

variable {w : ℕ} {α β : Type}

/-- A step with the result `a`. -/
def perform (s : Step w) (a : α) : Calc w α := ⟨[s], some a⟩

/-- No result. -/
def fail : Calc w α := ⟨[], none⟩

/-- First `c`, then what its result selects. -/
def bind (c : Calc w α) (f : α → Calc w β) : Calc w β :=
  match c.result with
  | none => ⟨c.steps, none⟩
  | some a => ⟨c.steps ++ (f a).steps, (f a).result⟩

instance : Monad (Calc w) where
  pure a := ⟨[], some a⟩
  bind := bind

/-- No step wraps around. -/
def Exact (c : Calc w α) : Prop := ∀ s ∈ c.steps, s.Exact

instance (c : Calc w α) : Decidable c.Exact :=
  inferInstanceAs (Decidable (∀ s ∈ c.steps, s.Exact))

/-! ### The steps -/

def neg (x : BitVec w) : Calc w (BitVec w) := perform (.neg x) (-x)

def add (x y : BitVec w) : Calc w (BitVec w) := perform (.add x y) (x + y)

def sub (x y : BitVec w) : Calc w (BitVec w) := perform (.sub x y) (x - y)

def addU (x y : BitVec w) : Calc w (BitVec w) := perform (.addU x y) (x + y)

def subU (x y : BitVec w) : Calc w (BitVec w) := perform (.subU x y) (x - y)

def mulU (x y : BitVec w) : Calc w (BitVec w) := perform (.mulU x y) (x * y)

def divU (x y : BitVec w) : Calc w (BitVec w) := perform (.divU x y) (x / y)

def modU (x y : BitVec w) : Calc w (BitVec w) := perform (.modU x y) (x % y)

def toUnsigned (x : BitVec w) : Calc w (BitVec w) := perform (.toUnsigned x) x

def toSigned (x : BitVec w) : Calc w (BitVec w) := perform (.toSigned x) x

def narrow (v : ℕ) (x : BitVec w) : Calc w (BitVec v) := perform (.narrow v x) (x.setWidth v)

def narrowU (v : ℕ) (x : BitVec w) : Calc w (BitVec v) := perform (.narrowU v x) (x.setWidth v)

def digit (d base : BitVec w) : Calc w (BitVec w) := perform (.digit d base) d

/-! ### Results -/

@[simp] theorem result_pure (a : α) : (pure a : Calc w α).result = some a := rfl

@[simp] theorem result_fail : (fail : Calc w α).result = none := rfl

@[simp] theorem result_perform (s : Step w) (a : α) : (perform s a).result = some a := rfl

/-- A sequence computes the second part from the result of the first. -/
@[simp] theorem result_bind (c : Calc w α) (f : α → Calc w β) :
    (c >>= f).result = c.result.bind fun a => (f a).result := by
  show (bind c f).result = _
  unfold bind
  cases c.result with
  | none => rfl
  | some a => rfl

@[simp] theorem result_ite (p : Prop) [Decidable p] (c d : Calc w α) :
    (if p then c else d).result = if p then c.result else d.result := by
  split_ifs <;> rfl

/-- The steps of the first part are steps of a sequence. -/
theorem mem_steps_bind {c : Calc w α} {s : Step w} (h : s ∈ c.steps) (f : α → Calc w β) :
    s ∈ (c >>= f).steps := by
  show s ∈ (bind c f).steps
  unfold bind
  cases c.result with
  | none => exact h
  | some a => exact List.mem_append_left _ h

/-! ### Exactness -/

@[simp] theorem exact_pure (a : α) : (pure a : Calc w α).Exact := by simp [Exact, pure]

@[simp] theorem exact_fail : (fail : Calc w α).Exact := by simp [Exact, fail]

/-- A step is exact if its own result does not overflow. -/
@[simp] theorem exact_perform_iff {s : Step w} {a : α} : (perform s a).Exact ↔ s.Exact := by
  simp [Exact, perform]

/-- **A sequence is exact where both parts are.** -/
theorem exact_bind_iff {c : Calc w α} {f : α → Calc w β} :
    (c >>= f).Exact ↔ c.Exact ∧ ∀ a, c.result = some a → (f a).Exact := by
  show (bind c f).Exact ↔ _
  unfold bind Exact
  cases hres : c.result with
  | none => simp
  | some a => simp [or_imp, forall_and]

/-- The same rule for a first part with a known result. -/
theorem Exact.bind {c : Calc w α} {f : α → Calc w β} {a : α} (hc : c.Exact)
    (ha : c.result = some a) (hf : (f a).Exact) : (c >>= f).Exact := by
  refine exact_bind_iff.2 ⟨hc, fun a' ha' => ?_⟩
  rwa [← Option.some.inj (ha.symm.trans ha')]

/-- One step, then the rest. -/
theorem exact_perform_bind {s : Step w} {a : α} {f : α → Calc w β} (hs : s.Exact)
    (hf : (f a).Exact) : (perform s a >>= f).Exact :=
  (exact_perform_iff.2 hs).bind rfl hf

end Calc
end Arith
