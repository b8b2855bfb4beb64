/-
# Runs of a machine until something holds

A machine is a partial function from states to states; where it is undefined, the
machine is stuck.  `Until step I P s` says of the run from `s`: it comes to a state
in `P` without being stuck, and all states before that one are in `I`.  It is total
correctness and an invariant in one (`Until.run`), and runs follow one another
(`Until.trans`).

`Always step I s` is for the runs that have no end: `I` holds as long as the run
goes on, and the machine is never stuck.
-/

import Mathlib.Algebra.Order.Group.Nat
import Mathlib.Logic.Function.Iterate
import Mathlib.Tactic.Common

namespace Transition

variable {σ : Type}

/-- The state after `n` steps. -/
def after (step : σ → Option σ) : ℕ → σ → Option σ
  | 0, s => some s
  | n + 1, s => (step s).bind (after step n)

/-- The run from `s` comes to a state in `P`, and all states before it are in `I`. -/
inductive Until (step : σ → Option σ) (I P : σ → Prop) : σ → Prop where
  | here {s : σ} (h : P s) : Until step I P s
  | next {s t : σ} (hI : I s) (hstep : step s = some t) (h : Until step I P t) : Until step I P s

/-- The run from `s` is never stuck, and all its states are in `I`. -/
def Always (step : σ → Option σ) (I : σ → Prop) (s : σ) : Prop :=
  ∀ n, ∃ t, after step n s = some t ∧ I t

variable {step : σ → Option σ} {I I' P Q : σ → Prop} {s t : σ}

/-- The first of the steps is taken first. -/
theorem after_succ_of_step (h : step s = some t) (n : ℕ) :
    after step (n + 1) s = after step n t := by
  rw [after, h, Option.bind_some]

/-! ### Rules -/

/-- What holds on the way and at the end can be weakened. -/
theorem Until.mono (hI : ∀ u, I u → I' u) (hP : ∀ u, P u → Q u) (h : Until step I P s) :
    Until step I' Q s := by
  induction h with
  | here h => exact .here (hP _ h)
  | next hs hstep _ ih => exact .next (hI _ hs) hstep ih

/-- What holds at the end can be weakened. -/
theorem Until.post (hP : ∀ u, P u → Q u) (h : Until step I P s) : Until step I Q s :=
  h.mono (fun _ => id) hP

/-- **The sequence rule.** -/
theorem Until.trans (h : Until step I P s) (hP : ∀ u, P u → Until step I Q u) :
    Until step I Q s := by
  induction h with
  | here h => exact hP _ h
  | next hs hstep _ ih => exact .next hs hstep ih

/-! ### What it says of the run -/

/-- **The run itself**: after some number of steps `P` holds, and `I` held before. -/
theorem Until.run (h : Until step I P s) :
    ∃ n t, after step n s = some t ∧ P t ∧ ∀ k < n, ∃ u, after step k s = some u ∧ I u := by
  induction h with
  | @here s h => exact ⟨0, s, rfl, h, fun k hk => absurd hk (Nat.not_lt_zero k)⟩
  | @next s t hI hstep _ ih =>
    obtain ⟨n, u, hu, hP, hbefore⟩ := ih
    refine ⟨n + 1, u, (after_succ_of_step hstep n).trans hu, hP, fun k hk => ?_⟩
    cases k with
    | zero => exact ⟨s, rfl, hI⟩
    | succ k =>
      rw [after_succ_of_step hstep]
      exact hbefore k (Nat.lt_of_succ_lt_succ hk)

/-- The state that the run comes to. -/
theorem Until.exists_eq (h : Until step I P s) : ∃ t, P t ∧ Until step I (· = t) s := by
  induction h with
  | @here s h => exact ⟨s, h, .here rfl⟩
  | next hI hstep _ ih =>
    obtain ⟨t, ht, hrun⟩ := ih
    exact ⟨t, ht, .next hI hstep hrun⟩

/-- A state that is its own successor. -/
theorem always_of_fixed (h : step s = some s) (hI : I s) : Always step I s := by
  intro n
  induction n with
  | zero => exact ⟨s, rfl, hI⟩
  | succ n ih =>
    rw [after_succ_of_step h]
    exact ih

/-- One step in front of a run that never ends. -/
theorem Always.next (hI : I s) (hstep : step s = some t) (h : Always step I t) :
    Always step I s := by
  intro n
  cases n with
  | zero => exact ⟨s, rfl, hI⟩
  | succ n =>
    rw [after_succ_of_step hstep]
    exact h n

/-- A run that comes to one without an end has none. -/
theorem Until.always (h : Until step I (Always step I) s) : Always step I s := by
  induction h with
  | here h => exact h
  | next hI hstep _ ih => exact ih.next hI hstep

end Transition
