/-
# Tables in memory

What the functions of `src/acpi/rsdt.c` that only read compute, as functions of
the memory image and of the two root pointers.  `Yields` says of kernel code that
it returns a value and leaves nothing behind but loads in the log; it composes
along the code, and one lemma for each function gives the value.
-/

import DrewOS.Acpi.Rsdp

namespace DrewOS
namespace Acpi

open ByteMem Effect

/-! ### Code that only reads -/

section Yields

variable {ε : Type}

/-- From `w` to `t` nothing but loads was done. -/
structure Scanned (w t : World ε) : Prop where
  bus : t.bus = w.bus
  kernel : t.kernel = w.kernel
  iflag : t.iflag = w.iflag
  mem : t.mem = w.mem
  log : ∃ l, t.log = w.log ++ l ∧ ∀ e ∈ l, ∃ a, e = .load a

theorem Scanned.refl (w : World ε) : Scanned w w :=
  ⟨rfl, rfl, rfl, rfl, [], (List.append_nil _).symm, fun _ h => absurd h List.not_mem_nil⟩

/-- Scanning twice is scanning. -/
theorem Scanned.trans {w t u : World ε} (h : Scanned w t) (h' : Scanned t u) : Scanned w u := by
  obtain ⟨l, hl, hload⟩ := h.log
  obtain ⟨l', hl', hload'⟩ := h'.log
  refine ⟨h'.bus.trans h.bus, h'.kernel.trans h.kernel, h'.iflag.trans h.iflag,
    h'.mem.trans h.mem, l ++ l', by rw [hl', hl, List.append_assoc], fun e he => ?_⟩
  exact (List.mem_append.1 he).elim (hload e) (hload' e)

variable {α β : Type} (b : Bus ε)

/-- The code returns `v` and has only read. -/
def Yields (p : Kern α) (w : World ε) (v : α) : Prop :=
  ∃ t, p.run (machine b) w = (some v, t) ∧ Scanned w t

variable {b}

theorem yields_ret (w : World ε) (v : α) : Yields b (.ret v) w v := ⟨w, rfl, .refl w⟩

/-- **The sequence rule.** -/
theorem Yields.bind {p : Kern α} {f : α → Kern β} {w : World ε} {v : α} {v' : β}
    (hp : Yields b p w v) (hf : ∀ t, Scanned w t → Yields b (f v) t v') :
    Yields b (p >>= f) w v' := by
  obtain ⟨t, hrun, ht⟩ := hp
  obtain ⟨u, hrun', hu⟩ := hf t ht
  exact ⟨u, (Prog.run_bind_of_some _ hrun).trans hrun', ht.trans hu⟩

/-- The value of a scan is determined by memory and the statics. -/
theorem Yields.unique {p : Kern α} {w : World ε} {v v' : α} (h : Yields b p w v)
    (h' : Yields b p w v') : v = v' := by
  obtain ⟨t, hrun, -⟩ := h
  obtain ⟨t', hrun', -⟩ := h'
  rw [hrun] at hrun'
  exact Option.some.inj (Prod.mk.inj hrun').1

theorem yields_getKernel (w : World ε) : Yields b getKernel w w.kernel := ⟨w, rfl, .refl w⟩

theorem yields_loadByte (a : Addr) (w : World ε) : Yields b (loadByte a) w (w.mem a) :=
  ⟨_, rfl, rfl, rfl, rfl, rfl, [.load a], rfl, fun _ h => ⟨a, List.mem_singleton.1 h⟩⟩

theorem yields_loadDword (a : Addr) (w : World ε) :
    Yields b (loadDword a) w (w.mem.load32 a) := by
  refine (yields_loadByte a w).bind fun t ht => ?_
  refine (yields_loadByte (a + 1) t).bind fun u hu => ?_
  refine (yields_loadByte (a + 2) u).bind fun v hv => ?_
  refine (yields_loadByte (a + 3) v).bind fun x _ => ?_
  rw [hv.mem, hu.mem, ht.mem]
  exact yields_ret _ _

/-- A quadword, the low half first. -/
theorem yields_loadQword (a : Addr) (w : World ε) :
    Yields b (loadQword a) w (w.mem.load32 (a + 4) ++ w.mem.load32 a) := by
  refine (yields_loadDword a w).bind fun t ht => ?_
  refine (yields_loadDword (a + 4) t).bind fun u _ => ?_
  rw [ht.mem]
  exact yields_ret _ _

end Yields

/-- `(uint32_t)` of a quadword. -/
theorem setWidth_qword (high low : Dword) : (high ++ low).setWidth 32 = low :=
  BitVec.setWidth_append_eq_right

/-! ### Checksums and signatures -/

/-- The sum of the `n` bytes from `a`. -/
def byteSum (m : Mem) : ℕ → Addr → Byte
  | 0, _ => 0
  | n + 1, a => m a + byteSum m n (a + 1)

/-- The value of `validate_checksum(header)`. -/
def checksumValid (m : Mem) (header : Addr) : Bool :=
  byteSum m (m.load32 (header + LENGTH)).toNat header == 0

/-- The bytes from `a` are `cs`. -/
def holdsBytes (m : Mem) : Addr → List Byte → Bool
  | _, [] => true
  | a, c :: cs => m a == c && holdsBytes m (a + 1) cs

/-- The value of `validate_checksum(header) && validate_signature(header, signature)`. -/
def tableValid (m : Mem) (signature : Signature) (header : Addr) : Bool :=
  checksumValid m header && holdsBytes m header signature.toList

section Run

variable {ε : Type} {b : Bus ε}

/-- `sumBytes` adds the sum of the bytes. -/
theorem yields_sumBytes (n : ℕ) (a : Addr) (checksum : Byte) (w : World ε) :
    Yields b (sumBytes n a checksum) w (checksum + byteSum w.mem n a) := by
  induction n generalizing a checksum w with
  | zero =>
    have hzero : checksum + 0 = checksum := BitVec.add_zero checksum
    rw [byteSum, hzero]
    exact yields_ret _ _
  | succ n ih =>
    refine (yields_loadByte a w).bind fun t ht => ?_
    rw [byteSum, ← BitVec.add_assoc, ← ht.mem]
    exact ih _ _ t

/-- `validate_checksum` gives the value of `checksumValid`. -/
theorem yields_validateChecksum (header : Addr) (w : World ε) :
    Yields b (validateChecksum header) w (checksumValid w.mem header) := by
  refine (yields_loadDword _ w).bind fun t ht => ?_
  refine (yields_sumBytes _ header 0 t).bind fun u _ => ?_
  have hzero : ∀ v : Byte, 0 + v = v := fun v => BitVec.zero_add v
  rw [hzero, checksumValid, ht.mem]
  exact yields_ret _ _

/-- The comparison gives the value of `holdsBytes`. -/
theorem yields_matchBytes (a : Addr) (cs : List Byte) (w : World ε) :
    Yields b (matchBytes a cs) w (holdsBytes w.mem a cs) := by
  induction cs generalizing a w with
  | nil => exact yields_ret _ _
  | cons c cs ih =>
    refine (yields_loadByte a w).bind fun t ht => ?_
    by_cases hc : w.mem a = c
    · rw [if_neg (not_not.2 hc), holdsBytes, hc, beq_self_eq_true, Bool.true_and, ← ht.mem]
      exact ih _ t
    · rw [if_pos hc, holdsBytes, beq_eq_false_iff_ne.2 hc, Bool.false_and]
      exact yields_ret _ _

/-- `validateTable` gives the value of `tableValid`. -/
theorem yields_validateTable (header : Addr) (signature : Signature) (w : World ε) :
    Yields b (validateTable header signature) w (tableValid w.mem signature header) := by
  refine (yields_validateChecksum header w).bind fun t ht => ?_
  rw [tableValid]
  cases checksumValid w.mem header with
  | false => exact yields_ret _ _
  | true =>
    rw [Bool.true_and, ← ht.mem]
    exact yields_matchBytes _ _ t

/-! ### The root table -/

/-- The value of `get_num_tables()`. -/
def numTables (m : Mem) (s : AcpiStatics) : Dword :=
  if s.rsdt ≠ 0 then (m.load32 (s.rsdt + LENGTH) - SDT_HEADER_SIZE) / 4
  else if s.xsdt ≠ 0 then (m.load32 (s.xsdt + LENGTH) - SDT_HEADER_SIZE) / 4
  else 0

/-- The value of `get_table(i)`. -/
def tableAt (m : Mem) (s : AcpiStatics) (i : Dword) : Addr :=
  if s.rsdt ≠ 0 then m.load32 (s.rsdt + SDT_HEADER_SIZE + 4 * i)
  else if s.xsdt ≠ 0 then m.load32 (s.xsdt + SDT_HEADER_SIZE + 8 * i)
  else 0

/-- `get_num_tables` gives the value of `numTables`. -/
theorem yields_getNumTables (w : World ε) :
    Yields b getNumTables w (numTables w.mem w.kernel.acpi) := by
  have hcount : ∀ (a : Addr) (t : World ε), Yields b
      (loadDword (a + LENGTH) >>= fun length => .ret ((length - SDT_HEADER_SIZE) / 4)) t
      ((t.mem.load32 (a + LENGTH) - SDT_HEADER_SIZE) / 4) := fun a t =>
    (yields_loadDword _ t).bind fun u _ => yields_ret _ _
  refine (yields_getKernel w).bind fun t ht => ?_
  rw [numTables, ← ht.mem]
  split_ifs
  · exact hcount _ t
  · exact hcount _ t
  · exact yields_ret _ _

/-- `get_table` gives the value of `tableAt`. -/
theorem yields_getTable (i : Dword) (w : World ε) :
    Yields b (getTable i) w (tableAt w.mem w.kernel.acpi i) := by
  refine (yields_getKernel w).bind fun t ht => ?_
  rw [tableAt, ← ht.mem]
  split_ifs
  · exact yields_loadDword _ t
  · refine (yields_loadQword _ t).bind fun u _ => ?_
    rw [setWidth_qword]
    exact yields_ret _ _
  · exact yields_ret _ _

end Run

end Acpi
end DrewOS
