/-
# Where `_cprint` stops reading its format

The loop of `_cprint` tests the character at the start of each round, and takes the
one behind a `'%'` without a test.  Where that is the terminator, the loop goes on
behind it.  This happens just when the format ends in an odd number of `'%'`: the
last of them has no other to go with (`pending_iff_odd`).

`cprintReads` is the loop with a note of which bytes of the format it reads, as
offsets from its start; without the note it is the loop (`cprintReads_erase`).
-/

import DrewOS.Console.Print
import Mathlib.Algebra.Ring.Parity
import Mathlib.Data.List.DropRight

namespace DrewOS
namespace Printing

open ByteMem Effect Console

/-! ### Formats -/

/-- Whether the text ends behind a `'%'` whose conversion is still to come. -/
def pending (fmt : List Byte) : Bool :=
  fmt.foldl (fun inside c => !inside && c == percent) false

/-- How often `'%'` stands at the end. -/
def percentsAtEnd (fmt : List Byte) : ℕ := (fmt.rtakeWhile (· == percent)).length

/-- An odd number of them leaves one without another to go with. -/
theorem pending_iff_odd (fmt : List Byte) : pending fmt = true ↔ Odd (percentsAtEnd fmt) := by
  induction fmt using List.reverseRecOn with
  | nil => simp [pending, percentsAtEnd]
  | append_singleton fmt c ih =>
    have hlast : pending (fmt ++ [c]) = (!pending fmt && c == percent) := by
      rw [pending, List.foldl_append]
      rfl
    rw [hlast, percentsAtEnd, List.rtakeWhile_concat]
    by_cases hc : c = percent
    · have hc' : (c == percent) = true := beq_iff_eq.2 hc
      rw [if_pos hc', hc', Bool.and_true, List.length_append, List.length_singleton,
        Nat.odd_add_one, Bool.not_eq_true', ← Bool.not_eq_true, ih]
      rfl
    · have hc' : (c == percent) = false := beq_eq_false_iff_ne.2 hc
      simp [hc']

/-- The rounds of the loop over a format, and whether it ends within a conversion. -/
inductive Scans : List Byte → Bool → Prop where
  | nil : Scans [] false
  | last : Scans [percent] true
  | literal {c : Byte} {fmt : List Byte} {inside : Bool} (hc : c ≠ percent)
      (h : Scans fmt inside) : Scans (c :: fmt) inside
  | conversion (c : Byte) {fmt : List Byte} {inside : Bool} (h : Scans fmt inside) :
      Scans (percent :: c :: fmt) inside

/-- A character that is no `%` leaves nothing pending. -/
theorem pending_literal {c : Byte} (hc : c ≠ percent) (fmt : List Byte) :
    pending (c :: fmt) = pending fmt := by
  have hc' : (c == percent) = false := beq_eq_false_iff_ne.2 hc
  simp [pending, hc']

/-- A conversion leaves nothing pending. -/
theorem pending_conversion (c : Byte) (fmt : List Byte) :
    pending (percent :: c :: fmt) = pending fmt := by
  simp [pending]

/-- The scan of a format ends with a `%` in hand or without one. -/
theorem scans_pending : ∀ fmt : List Byte, Scans fmt (pending fmt)
  | [] => .nil
  | [c] => by
    by_cases hc : c = percent
    · subst hc
      exact .last
    · rw [pending_literal hc]
      exact .literal hc .nil
  | c :: d :: fmt => by
    by_cases hc : c = percent
    · subst hc
      rw [pending_conversion]
      exact .conversion d (scans_pending fmt)
    · rw [pending_literal hc]
      exact .literal hc (scans_pending (d :: fmt))

/-! ### The loop with its reads -/

variable (fg bg : Colour)

/-- The loop of `_cprint` from offset `i` on, with the offsets it reads. -/
def cprintReads : ℕ → ℕ → Addr → Buffer → Print (List ℕ)
  | 0, _, _, _ => .cut
  | n + 1, i, msg, buf => do
    let c ← fetch msg
    if c = 0 then
      return [i]
    else if c = percent then
      let d ← fetch (msg + 1)
      let buf ← conversion fg bg n d buf
      let reads ← cprintReads n (i + 2) (msg + 2) buf
      return i :: (i + 1) :: reads
    else
      writeChar c fg bg
      let reads ← cprintReads n (i + 1) (msg + 1) buf
      return i :: reads

/-- Without the note it is the loop. -/
theorem cprintReads_erase (n i : ℕ) (msg : Addr) (buf : Buffer) :
    (cprintReads fg bg n i msg buf >>= fun _ => pure ()) = cprintLoop fg bg n msg buf := by
  induction n generalizing i msg buf with
  | zero => rfl
  | succ n ih =>
    unfold cprintReads cprintLoop
    rw [Prog.bind_bind]
    refine congrArg (fetch msg >>= ·) (funext fun c => ?_)
    by_cases h0 : c = 0
    · rw [if_pos h0, if_pos h0]
      rfl
    by_cases hp : c = percent
    · rw [if_neg h0, if_pos hp, if_neg h0, if_pos hp]
      simp only [Prog.bind_bind]
      refine congrArg (fetch (msg + 1) >>= ·) (funext fun d => ?_)
      refine congrArg (conversion fg bg n d buf >>= ·) (funext fun buf' => ?_)
      exact ih (i + 2) (msg + 2) buf'
    · rw [if_neg h0, if_neg hp, if_neg h0, if_neg hp]
      simp only [Prog.bind_bind]
      exact congrArg (writeChar c fg bg >>= ·) (funext fun _ => ih (i + 1) (msg + 1) buf)

/-- `_cprint` returns, and in this run it has read the terminator of the format, and
nothing of it beyond. -/
def ReadsInside (msg : Addr) (fmt : List Byte) (buf : Buffer) (w : State) : Prop :=
  ∃ n t reads, (cprint fg bg msg buf n).run machine w = (some (), t) ∧
    (cprintReads fg bg n 0 msg buf).run machine w = (some reads, t) ∧
    fmt.length ∈ reads ∧ ∀ i ∈ reads, i ≤ fmt.length

/-! ### Conversions -/

/-- Printing leaves the memory alone. -/
theorem run_mem {α : Type} (p : Print α) (w : State) : (p.run machine w).2.mem = w.mem := by
  induction p generalizing w with
  | ret a => rfl
  | cut => rfl
  | ask o k ih =>
    rw [Prog.run_ask, ih]
    cases o <;> rfl

/-- Every conversion returns, whatever its character is: in a memory with a `NUL`
every string ends. -/
theorem conversion_returns {z : Addr} {w : State} (hz : w.mem z = 0) (c : Byte) (buf : Buffer) :
    ∃ k buf' t, ∀ n, k < n → (conversion fg bg n c buf).run machine w = (some buf', t) := by
  by_cases hc : c ∈ [percent, charC, charS, charD, charX]
  · have hargs : w.args = [w.args.head] ++ₛ w.args.tail := (Stream'.eta w.args).symm
    obtain ⟨vs, rest, piece, hvs, hpiece⟩ := exists_converts hz hc [w.args.head]
      (by split_ifs <;> simp)
    rw [hvs, Stream'.append_append_stream] at hargs
    obtain ⟨new, buf', -, hrun⟩ := run_conversion fg bg hpiece hargs buf
    exact ⟨piece.length, buf', _, hrun⟩
  · simp only [List.mem_cons, List.not_mem_nil, or_false, not_or] at hc
    obtain ⟨h1, h2, h3, h4, h5⟩ := hc
    refine ⟨0, buf, w, fun n _ => ?_⟩
    rw [conversion, if_neg h1, if_neg h2, if_neg h3, if_neg h4, if_neg h5]
    rfl

/-! ### A format that does not end within a conversion -/

/-- Every byte of it is read once, in order. -/
theorem run_cprintReads {fmt : List Byte} {inside : Bool} (h : Scans fmt inside)
    (hinside : inside = false) {m : Mem} {msg : Addr} (hmsg : HoldsString m msg fmt) {w : State}
    (hmem : w.mem = m) (i : ℕ) (buf : Buffer) :
    ∃ k t, ∀ n, k < n → (cprintReads fg bg n i msg buf).run machine w =
      (some (List.range' i (fmt.length + 1)), t) := by
  obtain ⟨z, hz⟩ := hmsg.nul
  induction h generalizing msg w i buf with
  | nil =>
    have hnul : w.mem msg = 0 := by
      rw [hmem]
      exact hmsg
    refine ⟨0, w, fun n hn => ?_⟩
    obtain ⟨n, rfl⟩ : ∃ j, n = j + 1 := ⟨n - 1, by omega⟩
    rw [cprintReads, Prog.run_bind_of_some machine (run_fetch msg w), if_pos hnul]
    rfl
  | last => exact absurd hinside Bool.noConfusion
  | @literal c fmt inside hc _ ih =>
    obtain ⟨hhead, hne, htail⟩ := hmsg
    rw [← hmem] at hhead
    obtain ⟨k, t, hrun⟩ := ih hinside htail (w := w.after fg bg [c] w.args []) hmem (i + 1) buf
    refine ⟨k + 1, t, fun n hn => ?_⟩
    obtain ⟨n, rfl⟩ : ∃ j, n = j + 1 := ⟨n - 1, by omega⟩
    rw [cprintReads, Prog.run_bind_of_some machine (run_fetch msg w), hhead, if_neg hne, if_neg hc,
      Prog.run_bind_of_some machine (run_writeChar fg bg c w),
      Prog.run_bind_of_some machine (hrun n (by omega))]
    rfl
  | @conversion c fmt inside _ ih =>
    obtain ⟨hhead, hne, hnext, -, htail⟩ := hmsg
    rw [← hmem] at hhead hnext hz
    have htwo : msg + 1 + 1 = msg + 2 := BitVec.add_assoc ..
    obtain ⟨k, buf', u, hconv⟩ := conversion_returns fg bg hz c buf
    have hu : u.mem = m := by
      have hkeep := run_mem (conversion fg bg (k + 1) c buf) w
      rw [hconv (k + 1) (Nat.lt_succ_self k)] at hkeep
      exact hkeep.trans hmem
    rw [htwo] at htail
    obtain ⟨k', t, hrun⟩ := ih hinside htail hu (i + 2) buf'
    refine ⟨max k k' + 1, t, fun n hn => ?_⟩
    obtain ⟨n, rfl⟩ : ∃ j, n = j + 1 := ⟨n - 1, by omega⟩
    rw [cprintReads, Prog.run_bind_of_some machine (run_fetch msg w), hhead, if_neg hne, if_pos rfl,
      Prog.run_bind_of_some machine (run_fetch (msg + 1) w), hnext,
      Prog.run_bind_of_some machine (hconv n (by omega)),
      Prog.run_bind_of_some machine (hrun n (by omega))]
    rfl

/-! ### A format that ends within a conversion -/

/-- The first offset read is that of the first byte. -/
theorem cprintReads_head {n i : ℕ} {msg : Addr} {buf : Buffer} {w t : State} {reads : List ℕ}
    (hrun : (cprintReads fg bg n i msg buf).run machine w = (some reads, t)) : i ∈ reads := by
  cases n with
  | zero => exact nomatch hrun
  | succ n =>
    rw [cprintReads, Prog.run_bind_of_some machine (run_fetch msg w)] at hrun
    split_ifs at hrun
    · obtain rfl : [i] = reads := Option.some.inj (Prod.mk.inj hrun).1
      exact List.mem_singleton_self i
    · rw [Prog.run_bind_of_some machine (run_fetch (msg + 1) w)] at hrun
      obtain ⟨buf', u, -, hrun⟩ := (Prog.run_bind_eq_some machine).1 hrun
      obtain ⟨reads', v, -, hlast⟩ := (Prog.run_bind_eq_some machine).1 hrun
      obtain rfl : i :: (i + 1) :: reads' = reads := Option.some.inj (Prod.mk.inj hlast).1
      exact List.mem_cons_self ..
    · rw [Prog.run_bind_of_some machine (run_writeChar fg bg _ w)] at hrun
      obtain ⟨reads', v, -, hlast⟩ := (Prog.run_bind_eq_some machine).1 hrun
      obtain rfl : i :: reads' = reads := Option.some.inj (Prod.mk.inj hlast).1
      exact List.mem_cons_self ..

/-- A round with a conversion. -/
theorem cprintReads_conversion {n i : ℕ} {msg : Addr} {buf : Buffer} {w t : State}
    {reads : List ℕ} (hhead : w.mem msg = percent)
    (hrun : (cprintReads fg bg n i msg buf).run machine w = (some reads, t)) :
    ∃ n' buf' u reads', u.mem = w.mem ∧ reads = i :: (i + 1) :: reads' ∧
      (cprintReads fg bg n' (i + 2) (msg + 2) buf').run machine u = (some reads', t) := by
  cases n with
  | zero => exact nomatch hrun
  | succ n =>
    rw [cprintReads, Prog.run_bind_of_some machine (run_fetch msg w), hhead,
      if_neg (by decide), if_pos rfl,
      Prog.run_bind_of_some machine (run_fetch (msg + 1) w)] at hrun
    obtain ⟨buf', u, hconv, hrun⟩ := (Prog.run_bind_eq_some machine).1 hrun
    obtain ⟨reads', v, hrest, hlast⟩ := (Prog.run_bind_eq_some machine).1 hrun
    obtain ⟨hreads, rfl⟩ := Prod.mk.inj hlast
    have hkeep := run_mem (conversion fg bg n (w.mem (msg + 1)) buf) w
    rw [hconv] at hkeep
    exact ⟨n, buf', u, reads', hkeep, (Option.some.inj hreads).symm, hrest⟩

/-- **A byte behind the terminator is read.** -/
theorem cprintReads_beyond {fmt : List Byte} {inside : Bool} (h : Scans fmt inside)
    (hinside : inside = true) {m : Mem} {msg : Addr} (hmsg : HoldsString m msg fmt) {n i : ℕ}
    {buf : Buffer} {w t : State} (hmem : w.mem = m) {reads : List ℕ}
    (hrun : (cprintReads fg bg n i msg buf).run machine w = (some reads, t)) :
    i + fmt.length + 1 ∈ reads := by
  induction h generalizing msg n i buf w reads with
  | nil => exact absurd hinside Bool.noConfusion
  | last =>
    have hhead : w.mem msg = percent := by
      rw [hmem]
      exact hmsg.1
    obtain ⟨n', buf', u, reads', -, rfl, hrest⟩ := cprintReads_conversion fg bg hhead hrun
    have hmem := cprintReads_head fg bg hrest
    exact List.mem_cons_of_mem _ (List.mem_cons_of_mem _ hmem)
  | @literal c fmt inside hc _ ih =>
    obtain ⟨hhead, hne, htail⟩ := hmsg
    rw [← hmem] at hhead
    cases n with
    | zero => exact nomatch hrun
    | succ n =>
      rw [cprintReads, Prog.run_bind_of_some machine (run_fetch msg w), hhead, if_neg hne,
        if_neg hc, Prog.run_bind_of_some machine (run_writeChar fg bg c w)] at hrun
      obtain ⟨reads', v, hrest, hlast⟩ := (Prog.run_bind_eq_some machine).1 hrun
      obtain ⟨hreads, rfl⟩ := Prod.mk.inj hlast
      obtain rfl : i :: reads' = reads := Option.some.inj hreads
      have hbeyond := ih hinside htail (w := w.after fg bg [c] w.args []) hmem hrest
      rw [Nat.add_right_comm i 1] at hbeyond
      exact List.mem_cons_of_mem _ hbeyond
  | @conversion c fmt inside _ ih =>
    obtain ⟨hhead, -, -, -, htail⟩ := hmsg
    rw [← hmem] at hhead
    have htwo : msg + 1 + 1 = msg + 2 := BitVec.add_assoc ..
    rw [htwo] at htail
    obtain ⟨n', buf', u, reads', hu, rfl, hrest⟩ := cprintReads_conversion fg bg hhead hrun
    have hbeyond := ih hinside htail (hu.trans hmem) hrest
    rw [Nat.add_right_comm i 2] at hbeyond
    exact List.mem_cons_of_mem _ (List.mem_cons_of_mem _ hbeyond)

/-! ### Every format -/

/-- A `%` at the end lets the scan read behind the string. -/
theorem not_readsInside {msg : Addr} {fmt : List Byte} {w : State}
    (hfmt : HoldsString w.mem msg fmt) (hpending : pending fmt = true) (buf : Buffer) :
    ¬ ReadsInside fg bg msg fmt buf w := by
  rintro ⟨n, t, reads, -, hreads, -, hinside⟩
  have hbeyond := cprintReads_beyond fg bg (scans_pending fmt) hpending hfmt rfl hreads
  have hle := hinside _ hbeyond
  omega

/-- **When `_cprint` stays inside its format.**  For every format, with any arguments:
it returns, and reads no byte of the format beyond the terminator, if and only if the
number of `'%'` at the end of the format is even. -/
theorem cprint_readsInside_iff {msg : Addr} {fmt : List Byte} {w : State} (hmsg : msg ≠ 0)
    (hfmt : HoldsString w.mem msg fmt) (buf : Buffer) :
    ReadsInside fg bg msg fmt buf w ↔ Even (percentsAtEnd fmt) := by
  rw [← Nat.not_odd_iff_even, ← pending_iff_odd]
  constructor
  · exact fun h hpending => not_readsInside fg bg hfmt hpending buf h
  · intro hpending
    obtain ⟨k, t, hrun⟩ := run_cprintReads fg bg (scans_pending fmt)
      (Bool.eq_false_of_not_eq_true hpending) hfmt rfl 0 buf
    have hreads := hrun (k + 1) (Nat.lt_succ_self k)
    refine ⟨k + 1, t, _, ?_, hreads, ?_, fun i hi => ?_⟩
    · rw [cprint, if_neg hmsg, ← cprintReads_erase fg bg (k + 1) 0,
        Prog.run_bind_of_some machine hreads]
      rfl
    · exact List.mem_range'_1.2 ⟨Nat.zero_le _, by omega⟩
    · have hlt := (List.mem_range'_1.1 hi).2
      omega

/-- The format `"100%"` at address 1, and behind it the text `"!"`. -/
def hundred : State where
  mem := fun a => [0, 0x31, 0x30, 0x30, percent, 0, 0x21][a.toNat]?.getD 0
  args := .const 0
  written := []
  ignored := []

theorem holdsString_hundred : HoldsString hundred.mem 1 [0x31, 0x30, 0x30, percent] := by
  refine ⟨rfl, ?_, rfl, ?_, rfl, ?_, rfl, ?_, rfl⟩ <;> decide

/-- The text behind the format is printed with it. -/
theorem not_readsInside_hundred :
    ¬ ReadsInside .gray .black 1 [0x31, 0x30, 0x30, percent] (fun _ => 0) hundred :=
  not_readsInside .gray .black holdsString_hundred rfl _

/-- The format `100%` ends with one `%`: the scan does not stay inside. -/
theorem cprint_readsInside_iff_hundred :
    ReadsInside .gray .black 1 [0x31, 0x30, 0x30, percent] (fun _ => 0) hundred ↔ Even 1 :=
  cprint_readsInside_iff .gray .black (by decide) holdsString_hundred _

end Printing
end DrewOS
