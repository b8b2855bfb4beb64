/-
# Numerals, most significant digit first

A program that prints a number starts with the largest power of the base and
takes one digit after the other.  `leading` is that loop; with the right number
of digits it produces the digits of the number, none of them in vain
(`leading_eq`).
-/

import Mathlib.Data.Nat.Digits.Lemmas
import Mathlib.Data.Nat.Log

namespace Numeral

/-- The `n` digits of `x` from that of `b ^ (n - 1)` on. -/
def leading (b : ℕ) : ℕ → ℕ → List ℕ
  | 0, _ => []
  | n + 1, x => x / b ^ n :: leading b n (x % b ^ n)

/-- The digits of `x` in base `b`; 0 has the digit 0. -/
def digits (b x : ℕ) : List ℕ := if x = 0 then [0] else (Nat.digits b x).reverse

variable {b x : ℕ}

/-- The last digit. -/
theorem leading_succ {n : ℕ} (hb : 0 < b) (h : x < b ^ (n + 1)) :
    leading b (n + 1) x = leading b n (x / b) ++ [x % b] := by
  induction n generalizing x with
  | zero =>
    rw [zero_add, pow_one] at h
    rw [leading, leading, pow_zero, Nat.div_one, Nat.mod_eq_of_lt h]
    rfl
  | succ n ih =>
    have hmod : x % b ^ (n + 1) < b ^ (n + 1) := Nat.mod_lt x (Nat.pow_pos hb)
    have hhead : x / b ^ (n + 1) = x / b / b ^ n := by
      rw [Nat.div_div_eq_div_mul, Nat.pow_succ']
    have hrest : x % b ^ (n + 1) / b = x / b % b ^ n := by
      rw [Nat.pow_succ, Nat.mod_mul_left_div_self]
    have hlast : x % b ^ (n + 1) % b = x % b :=
      Nat.mod_mod_of_dvd x (Dvd.intro_left (b ^ n) (Nat.pow_succ ..).symm)
    rw [leading, ih hmod, hhead, hrest, hlast]
    rfl

/-- **The digits of a number.** -/
theorem leading_eq (hb : 1 < b) (x : ℕ) : leading b (Nat.log b x + 1) x = digits b x := by
  induction x using Nat.strong_induction_on with
  | h x ih =>
    have hlt : x < b ^ (Nat.log b x + 1) := Nat.lt_pow_succ_log_self hb x
    rcases Nat.eq_zero_or_pos x with rfl | hpos
    · rw [Nat.log_zero_right, leading, pow_zero, Nat.div_one]
      rfl
    have hdigits : digits b x = (Nat.digits b (x / b)).reverse ++ [x % b] := by
      rw [digits, if_neg hpos.ne', Nat.digits_def' hb hpos, List.reverse_cons]
    rw [leading_succ (by omega) hlt, hdigits]
    rcases Nat.lt_or_ge x b with hxb | hxb
    · rw [Nat.log_of_lt hxb, Nat.div_eq_of_lt hxb, Nat.digits_zero]
      rfl
    · have hdiv : 0 < x / b := Nat.div_pos hxb (by omega)
      have hlog : Nat.log b x = Nat.log b (x / b) + 1 := Nat.log_of_one_lt_of_le hb hxb
      rw [hlog, ih (x / b) (Nat.div_lt_self hpos hb), digits, if_neg hdiv.ne']

/-- A numeral has one digit more than the logarithm of the number. -/
theorem length_digits (hb : 1 < b) (x : ℕ) : (digits b x).length = Nat.log b x + 1 := by
  rw [digits]
  split_ifs with hx
  · rw [hx, Nat.log_zero_right]
    rfl
  · rw [List.length_reverse, Nat.length_digits b x hb hx]

/-- Every digit is below the base. -/
theorem digits_lt_base (hb : 1 < b) {d : ℕ} (hd : d ∈ digits b x) : d < b := by
  rw [digits] at hd
  split_ifs at hd with hx
  · rw [List.mem_singleton.1 hd]
    omega
  · exact Nat.digits_lt_base hb (List.mem_reverse.1 hd)

/-- `ds` are the digits of `x`, the most significant first and no zero in front of
the others. -/
structure IsDigits (b x : ℕ) (ds : List ℕ) : Prop where
  ne_nil : ds ≠ []
  lt_base : ∀ d ∈ ds, d < b
  value : Nat.ofDigits b ds.reverse = x
  lead : ds.head? = some 0 → ds = [0]

/-- The digits of a number are digits of the base. -/
theorem isDigits_digits (hb : 1 < b) (x : ℕ) : IsDigits b x (digits b x) := by
  have hlt : ∀ d ∈ digits b x, d < b := fun d => digits_lt_base hb
  rcases Nat.eq_zero_or_pos x with rfl | hpos
  · exact ⟨List.cons_ne_nil _ _, hlt, Nat.ofDigits_singleton, fun _ => rfl⟩
  have hne : Nat.digits b x ≠ [] := Nat.digits_ne_nil_iff_ne_zero.2 hpos.ne'
  refine ⟨?_, hlt, ?_, fun hzero => ?_⟩
  · rw [digits, if_neg hpos.ne']
    exact mt List.reverse_eq_nil_iff.1 hne
  · rw [digits, if_neg hpos.ne', List.reverse_reverse, Nat.ofDigits_digits]
  · rw [digits, if_neg hpos.ne', List.head?_reverse, List.getLast?_eq_some_getLast hne] at hzero
    exact absurd (Option.some.inj hzero) (Nat.getLast_digit_ne_zero b hpos.ne')

end Numeral
