/-
# What the polling loops report

A wait polls the status port until it finds it ready, and then reports the
counter, which has been decremented once for every poll but the last.  It is
`Truthful` when it reports success just if the last status it polled was ready.

The counter ends at `DEFAULT_WAIT` less the number of unsuccessful polls.  Where
one of the first `DEFAULT_WAIT` polls is successful that is above zero, as it
should be.  At the poll after them the counter is zero whatever is polled, and it
is decremented when the poll is not successful: so a port that becomes ready just
then is reported as a failure, and a port that is never ready as a success.
-/

import DrewOS.Ps2.Waits

namespace DrewOS

open ByteMem Effect

namespace Ps2

/-! ### The last poll -/

section Last

variable (ready : Byte → Bool) (n : ℕ) (s : Stream' Byte)

/-- The index of the last poll of a wait with counter `n`. -/
def lastPoll : ℕ := polls ready n s - 1

/-- The polls of a wait are those before the last one, and that one. -/
theorem polls_eq : polls ready n s = lastPoll ready n s + 1 := by
  unfold lastPoll
  cases n with
  | zero => rfl
  | succ n =>
    rw [polls]
    split_ifs <;> rfl

/-- The last poll is within the bound. -/
theorem lastPoll_le : lastPoll ready n s ≤ n := by
  induction n generalizing s with
  | zero => exact Nat.le_refl 0
  | succ n ih =>
    have hrest := ih s.tail
    unfold lastPoll at hrest ⊢
    rw [polls]
    split_ifs <;> omega

/-- The last poll is successful if a poll can be. -/
theorem ready_lastPoll_iff :
    ready (s.get (lastPoll ready n s)) = true ↔ ∃ i ≤ n, ready (s.get i) = true := by
  constructor
  · exact fun h => ⟨_, lastPoll_le ready n s, h⟩
  induction n generalizing s with
  | zero =>
    rintro ⟨i, hi, h⟩
    obtain rfl : i = 0 := Nat.le_zero.1 hi
    exact h
  | succ n ih =>
    rintro ⟨i, hi, h⟩
    cases hnow : ready s.head with
    | true =>
      have hlast : lastPoll ready (n + 1) s = 0 := by rw [lastPoll, polls, hnow, if_pos rfl]
      rw [hlast]
      exact hnow
    | false =>
      have hlast : lastPoll ready (n + 1) s = lastPoll ready n s.tail + 1 := by
        rw [lastPoll, polls, hnow, if_neg Bool.false_ne_true, polls_eq]
        rfl
      rw [hlast]
      cases i with
      | zero => exact absurd (hnow.symm.trans h) Bool.false_ne_true
      | succ i => exact ih s.tail ⟨i, Nat.le_of_succ_le_succ hi, h⟩

end Last

/-! ### The run of a wait -/

/-- The wait returns after at most `DEFAULT_WAIT + 1` polls of the status port, which
are all it does, and returns true just when the last status it polled was ready. -/
def Truthful (wait : Kern Bool) (ready : Byte → Bool) (w : World Streams) : Prop :=
  ∃ v t k, wait.run (machine streamBus) w = (some v, t) ∧ k ≤ DEFAULT_WAIT ∧
    t.log = w.log ++ (w.bus.status.take (k + 1)).map (.inb PORT_STATUS) ∧
    (v = true ↔ ready (w.bus.status.get k) = true)

/-- The log of the loop: the polls. -/
theorem log_waitLoop {ready : Kern Bool} {f : Byte → Bool}
    (hready : ∀ w, ready.run (machine streamBus) w =
      (some (f w.bus.status.head), w.afterInb streamBus PORT_STATUS))
    (n : ℕ) {w t : World Streams} {v : Dword}
    (hrun : (waitLoop ready n).run (machine streamBus) w = (some v, t)) :
    t.log = w.log ++ (w.bus.status.take (polls f n w.bus.status)).map (.inb PORT_STATUS) := by
  induction n generalizing w with
  | zero =>
    unfold waitLoop at hrun
    rw [Prog.run_bind_of_some _ (hready w)] at hrun
    have ht : t = w.afterInb streamBus PORT_STATUS := by
      split_ifs at hrun <;> exact (Prod.mk.inj hrun).2.symm
    rw [ht]
    rfl
  | succ n ih =>
    unfold waitLoop at hrun
    rw [Prog.run_bind_of_some _ (hready w)] at hrun
    cases hf : f w.bus.status.head with
    | true =>
      rw [hf, if_pos rfl] at hrun
      rw [polls, hf, if_pos rfl, ← (Prod.mk.inj hrun).2]
      rfl
    | false =>
      rw [hf, if_neg Bool.false_ne_true] at hrun
      rw [polls, hf, if_neg Bool.false_ne_true, ih hrun, afterInb_log, List.append_assoc]
      rfl

/-- The polls of a log, counted. -/
theorem polls_inj {s : Stream' Byte} {i j : ℕ} {l : List Event}
    (h : l ++ (s.take i).map (Event.inb PORT_STATUS) = l ++ (s.take j).map (.inb PORT_STATUS)) :
    i = j := by
  simpa only [List.length_map, Stream'.length_take] using
    congrArg List.length (List.append_cancel_left h)

/-- **When a wait is truthful**: when it is ready within the first `DEFAULT_WAIT` polls. -/
theorem truthful_wait_iff {ready : Kern Bool} {f : Byte → Bool}
    (hready : ∀ w, ready.run (machine streamBus) w =
      (some (f w.bus.status.head), w.afterInb streamBus PORT_STATUS)) (w : World Streams) :
    Truthful (waitLoop ready DEFAULT_WAIT >>= fun wait => pure (wait != 0)) f w ↔
      ∃ i < DEFAULT_WAIT, f (w.bus.status.get i) = true := by
  obtain ⟨v, t, hrun, hv, -⟩ := run_waitLoop hready DEFAULT_WAIT (by decide) w
  have hlog := log_waitLoop hready DEFAULT_WAIT hrun
  have hwait : (waitLoop ready DEFAULT_WAIT >>= fun wait => pure (wait != 0)).run
      (machine streamBus) w = (some (!decide (w.bus.Late f)), t) := by
    rw [Prog.run_bind_of_some _ hrun]
    exact congrArg (fun ok => (some ok, t)) (bne_zero_eq hv)
  -- the verdict is false just for a late port, the last poll is successful if any can be
  have hverdict : Truthful (waitLoop ready DEFAULT_WAIT >>= fun wait => pure (wait != 0)) f w ↔
      (¬ w.bus.Late f ↔ ∃ i ≤ DEFAULT_WAIT, f (w.bus.status.get i) = true) := by
    rw [← ready_lastPoll_iff]
    constructor
    · rintro ⟨v', t', k, hrun', -, hlog', hv'⟩
      rw [hwait] at hrun'
      obtain ⟨rfl, rfl⟩ : (!decide (w.bus.Late f)) = v' ∧ t = t' := by
        simpa only [Prod.mk.injEq, Option.some.injEq] using hrun'
      obtain rfl : lastPoll f DEFAULT_WAIT w.bus.status = k := by
        have hk := polls_inj (hlog.symm.trans hlog')
        rw [polls_eq] at hk
        exact Nat.succ.inj hk
      rw [← hv']
      simp
    · intro h
      refine ⟨_, t, lastPoll f DEFAULT_WAIT w.bus.status, hwait, lastPoll_le .., ?_, ?_⟩
      · rw [hlog, polls_eq]
      · rw [← h]
        simp
  rw [hverdict]
  constructor
  · intro h
    by_contra hnever
    have hfalse : ∀ i < DEFAULT_WAIT, f (w.bus.status.get i) = false := fun i hi => by
      by_contra hi'
      exact hnever ⟨i, hi, Bool.eq_true_of_not_eq_false hi'⟩
    cases hlast : f (w.bus.status.get DEFAULT_WAIT) with
    | true => exact h.2 ⟨DEFAULT_WAIT, le_rfl, hlast⟩ ⟨hfalse, hlast⟩
    | false =>
      obtain ⟨i, hi, hfi⟩ := h.1 fun hlate => Bool.false_ne_true (hlast.symm.trans hlate.2)
      rcases Nat.lt_or_eq_of_le hi with hlt | rfl
      · exact hnever ⟨i, hlt, hfi⟩
      · exact Bool.false_ne_true (hlast.symm.trans hfi)
  · rintro ⟨i, hi, hfi⟩
    refine iff_of_true (fun hlate => ?_) ⟨i, hi.le, hfi⟩
    exact Bool.false_ne_true ((hlate.1 i hi).symm.trans hfi)

/-- The wait for input is truthful if a status among the first 1024 says so. -/
theorem truthful_ps2BufferWait_iff (w : World Streams) :
    Truthful ps2BufferWait inputEmpty w ↔
      ∃ i < DEFAULT_WAIT, inputEmpty (w.bus.status.get i) = true :=
  truthful_wait_iff (fun _ => rfl) w

/-- The wait for output is truthful if a status among the first 1024 says so. -/
theorem truthful_responseWait_iff (w : World Streams) :
    Truthful responseWait outputFull w ↔
      ∃ i < DEFAULT_WAIT, outputFull (w.bus.status.get i) = true :=
  truthful_wait_iff (fun _ => rfl) w

/-- **The verdicts of the polling loops.**  Each wait is truthful if and only if its
port is ready at one of the first `DEFAULT_WAIT` polls. -/
theorem waits_truthful_iff (w : World Streams) :
    (Truthful ps2BufferWait inputEmpty w ↔
      ∃ i < DEFAULT_WAIT, inputEmpty (w.bus.status.get i) = true) ∧
    (Truthful responseWait outputFull w ↔
      ∃ i < DEFAULT_WAIT, outputFull (w.bus.status.get i) = true) :=
  ⟨truthful_ps2BufferWait_iff w, truthful_responseWait_iff w⟩

/-- A controller that never takes a byte and never has one. -/
def stuck : Streams where
  status := .const 0x02
  data := .const 0
  other := .const 0
  words := .const 0

/-- Both waits report success against it. -/
theorem not_truthful_stuck :
    ¬ Truthful ps2BufferWait inputEmpty (.boot stuck emptyIdt fun _ => 0) ∧
      ¬ Truthful responseWait outputFull (.boot stuck emptyIdt fun _ => 0) := by
  have hempty : inputEmpty 0x02 = false := rfl
  have hfull : outputFull 0x02 = false := rfl
  rw [truthful_ps2BufferWait_iff, truthful_responseWait_iff]
  constructor
  · rintro ⟨i, -, h⟩
    exact Bool.false_ne_true (hempty.symm.trans h)
  · rintro ⟨i, -, h⟩
    exact Bool.false_ne_true (hfull.symm.trans h)

end Ps2
end DrewOS
