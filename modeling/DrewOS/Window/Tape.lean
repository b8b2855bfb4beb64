/-
# A window that moves along a tape

A tape has a cell for every number, and a head that writes one cell after the
other.  A window of `size` cells shows a part of it.  It starts at the first cell,
and moves by `step` cells when the head leaves it.

What `write` leaves on the tape is what was written, from the head on
(`write_cells`); how often the window has moved depends on the head alone
(`Framed.top_eq`).
-/

import Mathlib.Algebra.Order.Group.Nat
import Mathlib.Data.List.Induction
import Mathlib.Logic.Function.Basic
import Mathlib.Tactic.Common

namespace Window

/-- A tape with its head, and the number of times that the window has moved. -/
structure Tape (α : Type) where
  cells : ℕ → α
  head : ℕ
  top : ℕ

namespace Tape

variable {α : Type} (step size : ℕ)

/-- Write a cell; the window moves if the head leaves it. -/
def put (t : Tape α) (v : α) : Tape α where
  cells := Function.update t.cells t.head v
  head := t.head + 1
  top := if t.head + 1 < size + step * t.top then t.top else t.top + 1

theorem put_cells_head (t : Tape α) (v : α) : (t.put step size v).cells t.head = v :=
  Function.update_self ..

/-- A put changes no other cell. -/
theorem put_cells_of_ne {t : Tape α} {i : ℕ} (h : i ≠ t.head) (v : α) :
    (t.put step size v).cells i = t.cells i :=
  Function.update_of_ne h ..

/-- Write cells, one after the other. -/
def write (t : Tape α) (vs : List α) : Tape α := vs.foldl (put step size) t

/-- Writing one value more is one put behind the others. -/
theorem write_concat (t : Tape α) (vs : List α) (v : α) :
    t.write step size (vs ++ [v]) = (t.write step size vs).put step size v := by
  rw [write, List.foldl_append]
  rfl

/-- Each value moves the head by one cell. -/
theorem write_head (t : Tape α) (vs : List α) :
    (t.write step size vs).head = t.head + vs.length := by
  induction vs using List.reverseRecOn with
  | nil => rfl
  | append_singleton vs v ih =>
    rw [write_concat, List.length_append]
    exact congrArg (· + 1) ih

/-- **What is on the tape**: the cells written, and before and behind them the old ones. -/
theorem write_cells (t : Tape α) (vs : List α) (i : ℕ) :
    (t.write step size vs).cells i =
      if t.head ≤ i then vs[i - t.head]?.getD (t.cells i) else t.cells i := by
  induction vs using List.reverseRecOn with
  | nil => exact (ite_self _).symm
  | append_singleton vs v ih =>
    have hhead := write_head step size t vs
    rw [write_concat]
    by_cases hi : i = t.head + vs.length
    · have hlast : (vs ++ [v])[i - t.head]? = some v := by
        rw [hi, Nat.add_sub_cancel_left, List.getElem?_concat_length]
      rw [if_pos (by omega), hlast, hi, ← hhead]
      exact put_cells_head ..
    · rw [put_cells_of_ne step size (by omega), ih]
      by_cases hle : t.head ≤ i
      · rw [if_pos hle, if_pos hle]
        rcases Nat.lt_or_ge (i - t.head) vs.length with hlt | hge
        · rw [List.getElem?_append_left hlt]
        · have hlength : (vs ++ [v]).length ≤ i - t.head := by
            rw [List.length_append, List.length_singleton]
            omega
          rw [List.getElem?_eq_none hge, List.getElem?_eq_none hlength]
      · rw [if_neg hle, if_neg hle]

/-- The head is in the window, and would not be before the last move. -/
structure Framed (t : Tape α) : Prop where
  inside : t.head < size + step * t.top
  late : ∀ k, t.top = k + 1 → size + step * k ≤ t.head

variable {step size}

/-- Putting a value keeps the window on the head. -/
theorem Framed.put (hs : 0 < step) {t : Tape α} (h : Framed step size t) (v : α) :
    Framed step size (t.put step size v) := by
  have hin := h.inside
  rcases Nat.lt_or_ge (t.head + 1) (size + step * t.top) with hlt | hge
  · have htop : (t.put step size v).top = t.top := if_pos hlt
    refine ⟨?_, fun k hk => ?_⟩
    · rw [htop]
      exact hlt
    · exact (h.late k (htop.symm.trans hk)).trans (Nat.le_succ _)
  · have htop : (t.put step size v).top = t.top + 1 := if_neg (Nat.not_lt.2 hge)
    refine ⟨?_, fun k hk => ?_⟩
    · rw [htop, Nat.mul_succ]
      show t.head + 1 < _
      omega
    · obtain rfl : t.top = k := Nat.succ.inj (htop.symm.trans hk)
      exact hge

/-- Writing values keeps the window on the head. -/
theorem Framed.write (hs : 0 < step) {t : Tape α} (h : Framed step size t) (vs : List α) :
    Framed step size (t.write step size vs) := by
  induction vs using List.reverseRecOn with
  | nil => exact h
  | append_singleton vs v ih =>
    rw [write_concat]
    exact ih.put hs v

/-- **How often the window has moved.** -/
theorem Framed.top_eq {t : Tape α} (h : Framed step size t) :
    t.top = if t.head < size then 0 else (t.head - size) / step + 1 := by
  have hin := h.inside
  cases htop : t.top with
  | zero =>
    rw [htop, Nat.mul_zero] at hin
    exact (if_pos hin).symm
  | succ k =>
    have hlate := h.late k htop
    rw [htop] at hin
    have hdiv : (t.head - size) / step = k := by
      refine Nat.div_eq_of_lt_le ?_ ?_
      · rw [Nat.mul_comm]
        omega
      · rw [Nat.mul_comm]
        omega
    rw [if_neg (by omega), hdiv]

end Tape
end Window
