/-
# Programs that ask a machine for operations

A program is a tree: it returns a result, or asks for one operation and goes on
with the answer.  What the operations do is left to a `Machine`, so that one
program can be run against many environments (arbitrary input streams, a closed
model of a device) and the same text is the subject of all the theorems.

Recursion whose depth depends on the answers has no bound that the program
knows.  Such a program is a family indexed by the recursion depth it may use,
and `cut` is where a run that wants to go deeper is broken off: every finite
point of an infinite run is a point of the run at some depth
(`DrewOS.Effect.Fuel`).
-/

import Mathlib.Data.List.Infix
import Mathlib.Tactic.Common

namespace Effect

/-- The operations a program may ask for, each with the type of its answer. -/
structure Interface where
  Op : Type
  Answer : Op → Type

/-- A program with results in `α` over the operations of `S`. -/
inductive Prog (S : Interface) (α : Type) : Type where
  | ret (a : α)
  | cut
  | ask (o : S.Op) (k : S.Answer o → Prog S α)

/-- A machine with states `σ`: the answer to each operation and the state after it. -/
abbrev Machine (S : Interface) (σ : Type) : Type :=
  (o : S.Op) → σ → S.Answer o × σ

namespace Prog

variable {S : Interface} {σ α β γ : Type}

/-- Sequencing: run `p`, then the program its result selects. -/
def bind : Prog S α → (α → Prog S β) → Prog S β
  | .ret a, f => f a
  | .cut, _ => .cut
  | .ask o k, f => .ask o fun r => (k r).bind f

instance : Monad (Prog S) where
  pure := .ret
  bind := bind

@[simp] theorem pure_eq (a : α) : (pure a : Prog S α) = .ret a := rfl

@[simp] theorem ret_bind (a : α) (f : α → Prog S β) : (.ret a : Prog S α) >>= f = f a := rfl

@[simp] theorem ask_bind (o : S.Op) (k : S.Answer o → Prog S α) (f : α → Prog S β) :
    (.ask o k : Prog S α) >>= f = .ask o fun r => k r >>= f := rfl

theorem bind_ret (p : Prog S α) : p >>= .ret = p := by
  induction p with
  | ret a => rfl
  | cut => rfl
  | ask o k ih => exact congrArg (Prog.ask o) (funext ih)

/-- Sequencing is associative. -/
theorem bind_bind (p : Prog S α) (f : α → Prog S β) (g : β → Prog S γ) :
    p >>= f >>= g = p >>= fun a => f a >>= g := by
  induction p with
  | ret a => rfl
  | cut => rfl
  | ask o k ih => exact congrArg (Prog.ask o) (funext ih)

instance : LawfulMonad (Prog S) :=
  LawfulMonad.mk' (Prog S) (fun p => bind_ret p) (fun _ _ => rfl) bind_bind

/-- The result of a run from `s` (`none` when the run was cut) and its last state. -/
def run (m : Machine S σ) : Prog S α → σ → Option α × σ
  | .ret a, s => (some a, s)
  | .cut, s => (none, s)
  | .ask o k, s => (k (m o s).1).run m (m o s).2

/-- The states of a run from `s` after each of its operations, in order. -/
def states (m : Machine S σ) : Prog S α → σ → List σ
  | .ret _, _ => []
  | .cut, _ => []
  | .ask o k, s => (m o s).2 :: (k (m o s).1).states m (m o s).2

/-- The operations of a run from `s`, each with the state it is asked in. -/
def asked (m : Machine S σ) : Prog S α → σ → List (S.Op × σ)
  | .ret _, _ => []
  | .cut, _ => []
  | .ask o k, s => (o, s) :: (k (m o s).1).asked m (m o s).2

variable (m : Machine S σ)

@[simp] theorem run_ret (a : α) (s : σ) : (ret a : Prog S α).run m s = (some a, s) := rfl

@[simp] theorem run_cut (s : σ) : (cut : Prog S α).run m s = (none, s) := rfl

@[simp] theorem run_ask (o : S.Op) (k : S.Answer o → Prog S α) (s : σ) :
    (ask o k).run m s = (k (m o s).1).run m (m o s).2 := rfl

@[simp] theorem states_ret (a : α) (s : σ) : (ret a : Prog S α).states m s = [] := rfl

@[simp] theorem states_cut (s : σ) : (cut : Prog S α).states m s = [] := rfl

@[simp] theorem states_ask (o : S.Op) (k : S.Answer o → Prog S α) (s : σ) :
    (ask o k).states m s = (m o s).2 :: (k (m o s).1).states m (m o s).2 := rfl

@[simp] theorem asked_ret (a : α) (s : σ) : (ret a : Prog S α).asked m s = [] := rfl

@[simp] theorem asked_cut (s : σ) : (cut : Prog S α).asked m s = [] := rfl

@[simp] theorem asked_ask (o : S.Op) (k : S.Answer o → Prog S α) (s : σ) :
    (ask o k).asked m s = (o, s) :: (k (m o s).1).asked m (m o s).2 := rfl

/-- A run of a sequence is a run of its first part, followed, when that part
returns, by a run of the second. -/
theorem run_bind (p : Prog S α) (f : α → Prog S β) (s : σ) :
    (p >>= f).run m s =
      match p.run m s with
      | (some a, t) => (f a).run m t
      | (none, t) => (none, t) := by
  induction p generalizing s with
  | ret a => rfl
  | cut => rfl
  | ask o k ih => exact ih _ _

/-- Behind a part that returns, the run is the one of the continuation. -/
theorem run_bind_of_some {p : Prog S α} {f : α → Prog S β} {s t : σ} {a : α}
    (h : p.run m s = (some a, t)) : (p >>= f).run m s = (f a).run m t := by
  rw [run_bind, h]

/-- A sequence returns if and only if its parts do, one after the other. -/
theorem run_bind_eq_some {p : Prog S α} {f : α → Prog S β} {s u : σ} {b : β} :
    (p >>= f).run m s = (some b, u) ↔
      ∃ a t, p.run m s = (some a, t) ∧ (f a).run m t = (some b, u) := by
  rw [run_bind]
  rcases p.run m s with ⟨_ | a, t⟩ <;> simp

/-- The states of a sequence are those of its first part and, when that part
returns, those of the second. -/
theorem states_bind (p : Prog S α) (f : α → Prog S β) (s : σ) :
    (p >>= f).states m s = p.states m s ++
      match p.run m s with
      | (some a, t) => (f a).states m t
      | (none, _) => [] := by
  induction p generalizing s with
  | ret a => rfl
  | cut => rfl
  | ask o k ih => exact congrArg (_ :: ·) (ih _ _)

/-- Behind a part that returns come the states of the continuation. -/
theorem states_bind_of_some {p : Prog S α} {f : α → Prog S β} {s t : σ} {a : α}
    (h : p.run m s = (some a, t)) :
    (p >>= f).states m s = p.states m s ++ (f a).states m t := by
  rw [states_bind, h]

/-- The last state of a run is a state of it, unless nothing was asked. -/
theorem run_mem_states (p : Prog S α) (s : σ) :
    (p.run m s).2 = s ∨ (p.run m s).2 ∈ p.states m s := by
  induction p generalizing s with
  | ret a => exact .inl rfl
  | cut => exact .inl rfl
  | ask o k ih =>
    right
    rcases ih (m o s).1 (m o s).2 with h | h
    · rw [run_ask, h]
      exact List.mem_cons_self ..
    · exact List.mem_cons_of_mem _ h

/-- What a sequence asks is what its first part asks and, when that part
returns, what the second does. -/
theorem asked_bind (p : Prog S α) (f : α → Prog S β) (s : σ) :
    (p >>= f).asked m s = p.asked m s ++
      match p.run m s with
      | (some a, t) => (f a).asked m t
      | (none, _) => [] := by
  induction p generalizing s with
  | ret a => rfl
  | cut => rfl
  | ask o k ih => exact congrArg (_ :: ·) (ih _ _)

end Prog
end Effect
