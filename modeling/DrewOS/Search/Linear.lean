/-
# Linear search

A search that tests one candidate after the other and returns the first that it
accepts.  `search_eq_some_iff` says which one that is, `search_eq_none_iff` when
there is none, and `search_isLeast` that it is the lowest one where the candidates
ascend.
-/

import Mathlib.Order.Bounds.Basic
import Mathlib.Tactic.Common

namespace LinearSearch

variable {α β : Type} {p : α → Bool} {next : α → α}

/-- `for (; n > 0; n--, a = next(a)) if (p(a)) return a;` -/
def search (p : α → Bool) (next : α → α) : ℕ → α → Option α
  | 0, _ => none
  | n + 1, a => if p a then some a else search p next n (next a)

/-- Nothing is found if and only if no place of the walk is accepted. -/
theorem search_eq_none_iff {n : ℕ} {a : α} :
    search p next n a = none ↔ ∀ k < n, p (next^[k] a) = false := by
  induction n generalizing a with
  | zero => exact iff_of_true rfl fun k hk => absurd hk (Nat.not_lt_zero k)
  | succ n ih =>
    rw [search]
    by_cases hp : p a = true
    · rw [if_pos hp]
      refine iff_of_false (Option.some_ne_none a) fun h => ?_
      exact Bool.false_ne_true ((h 0 (Nat.succ_pos n)).symm.trans hp)
    · rw [if_neg hp, ih]
      constructor
      · intro h k hk
        cases k with
        | zero => exact Bool.eq_false_of_not_eq_true hp
        | succ k => exact h k (Nat.lt_of_succ_lt_succ hk)
      · intro h k hk
        exact h (k + 1) (Nat.succ_lt_succ hk)

/-- **The first candidate that is accepted.** -/
theorem search_eq_some_iff {n : ℕ} {a b : α} :
    search p next n a = some b ↔
      ∃ k < n, next^[k] a = b ∧ p b = true ∧ ∀ j < k, p (next^[j] a) = false := by
  induction n generalizing a with
  | zero =>
    constructor
    · intro h
      exact absurd h.symm (Option.some_ne_none b)
    · rintro ⟨k, hk, -⟩
      exact absurd hk (Nat.not_lt_zero k)
  | succ n ih =>
    rw [search]
    by_cases hp : p a = true
    · rw [if_pos hp]
      constructor
      · intro h
        obtain rfl := Option.some.inj h
        exact ⟨0, Nat.succ_pos n, rfl, hp, fun j hj => absurd hj (Nat.not_lt_zero j)⟩
      · rintro ⟨k, -, hk, -, hbefore⟩
        cases k with
        | zero => exact congrArg some hk
        | succ k =>
          exact absurd ((hbefore 0 (Nat.succ_pos k)).symm.trans hp) Bool.false_ne_true
    · rw [if_neg hp, ih]
      constructor
      · rintro ⟨k, hk, hb, hpb, hbefore⟩
        refine ⟨k + 1, Nat.succ_lt_succ hk, hb, hpb, fun j hj => ?_⟩
        cases j with
        | zero => exact Bool.eq_false_of_not_eq_true hp
        | succ j => exact hbefore j (Nat.lt_of_succ_lt_succ hj)
      · rintro ⟨k, hk, hb, hpb, hbefore⟩
        cases k with
        | zero =>
          rw [← hb] at hpb
          exact absurd hpb hp
        | succ k =>
          exact ⟨k, Nat.lt_of_succ_lt_succ hk, hb, hpb, fun j hj =>
            hbefore (j + 1) (Nat.succ_lt_succ hj)⟩

/-- The keys of the candidates that are accepted. -/
def accepted (p : α → Bool) (next : α → α) (key : α → β) (n : ℕ) (a : α) : Set β :=
  {x | ∃ k < n, key (next^[k] a) = x ∧ p (next^[k] a) = true}

/-- **The lowest candidate**, where the keys ascend. -/
theorem search_isLeast [Preorder β] (key : α → β) {n : ℕ} {a b : α}
    (hkey : ∀ j k, j ≤ k → k < n → key (next^[j] a) ≤ key (next^[k] a))
    (h : search p next n a = some b) : IsLeast (accepted p next key n a) (key b) := by
  obtain ⟨k, hk, rfl, hpb, hbefore⟩ := search_eq_some_iff.1 h
  refine ⟨⟨k, hk, rfl, hpb⟩, ?_⟩
  rintro x ⟨j, hj, rfl, hpj⟩
  rcases Nat.lt_or_ge j k with hlt | hge
  · exact absurd ((hbefore j hlt).symm.trans hpj) Bool.false_ne_true
  · exact hkey k j hge hj

/-- Nothing is found if and only if there is no accepted place. -/
theorem search_eq_none_iff_accepted (key : α → β) {n : ℕ} {a : α} :
    search p next n a = none ↔ accepted p next key n a = ∅ := by
  rw [search_eq_none_iff, Set.eq_empty_iff_forall_notMem]
  constructor
  · rintro h x ⟨k, hk, -, hpk⟩
    exact Bool.false_ne_true ((h k hk).symm.trans hpk)
  · intro h k hk
    exact Bool.eq_false_of_not_eq_true fun hpk => h _ ⟨k, hk, rfl, hpk⟩

end LinearSearch
