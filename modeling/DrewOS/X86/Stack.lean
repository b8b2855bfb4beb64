/-
# What lies on the stack

`Holds E ws s`: since the stack pointer was `E`, the doublewords `ws` have been
pushed, the last one being on top.  Pushes and pops are list operations on `ws`
(`Holds.push`, `Holds.drop`), whatever `E` is and also where the stack wraps
around the address space.

`Cdecl args live f` is the calling convention: `f` returns to the address on
top of the stack, keeps the callee-saved registers and leaves `live`
doublewords above its `args` arguments alone; the arguments themselves are its
own.
-/

import DrewOS.X86.Cpu

namespace X86

open ByteMem

/-- The address of the `i`-th doubleword below `E`. -/
def slot (E : Addr) (i : ℕ) : Addr := E - BitVec.ofNat 32 (4 * i)

@[simp] theorem slot_zero (E : Addr) : slot E 0 = E := BitVec.sub_zero E

/-- The next slot is four bytes lower. -/
theorem slot_succ (E : Addr) (i : ℕ) : slot E i - 4 = slot E (i + 1) := by
  unfold slot
  bv_omega

/-- The slot before is four bytes higher. -/
theorem slot_add (E : Addr) (i : ℕ) : slot E (i + 1) + 4 = slot E i := by
  unfold slot
  bv_omega

/-- Two slots of a stack are different words. -/
theorem slot_inj {E : Addr} {i j : ℕ} (hi : i < 2 ^ 28) (hj : j < 2 ^ 28)
    (h : slot E i = slot E j) : i = j := by
  unfold slot at h
  bv_omega

/-- Since the stack pointer was `E`, the doublewords `ws` have been pushed. -/
structure Holds (E : Addr) (ws : List Dword) (s : Cpu) : Prop where
  esp : s.esp = slot E ws.length
  word : ∀ i w, ws[i]? = some w → s.mem.load32 (slot E (i + 1)) = w

variable {E : Addr} {ws : List Dword} {s : Cpu}

theorem holds_nil (s : Cpu) : Holds s.esp [] s :=
  ⟨(slot_zero _).symm, fun i w h => by simp at h⟩

/-- Only the stack pointer and the memory matter. -/
theorem Holds.congr {t : Cpu} (h : Holds E ws s) (hesp : t.esp = s.esp) (hmem : t.mem = s.mem) :
    Holds E ws t :=
  ⟨hesp.trans h.esp, fun i w hw => hmem ▸ h.word i w hw⟩

/-- A pushed word lies on top. -/
theorem Holds.push (h : Holds E ws s) (hlen : ws.length < 2 ^ 28) (v : Dword) :
    Holds E (ws ++ [v]) (s.push v) := by
  have hat : s.esp - 4 = slot E (ws.length + 1) := by rw [h.esp, slot_succ]
  refine ⟨by rw [Cpu.push_esp, hat, List.length_append, List.length_singleton], fun i w hw => ?_⟩
  rcases Nat.lt_trichotomy i ws.length with hi | rfl | hi
  · rw [List.getElem?_append_left hi] at hw
    rw [← h.word i w hw]
    refine Mem.load32_congr fun j hj => Mem.store32_of_ge _ _ ?_
    rw [hat]
    unfold slot
    bv_omega
  · rw [List.getElem?_concat_length] at hw
    obtain rfl := Option.some.inj hw
    rw [← hat]
    exact Mem.load32_store32 ..
  · rw [List.getElem?_eq_none (by simp; omega)] at hw
    exact absurd hw (by simp)

/-- The word on top is the last one. -/
theorem Holds.top {v : Dword} (h : Holds E (ws ++ [v]) s) : s.top = v := by
  have hesp := h.esp
  rw [List.length_append, List.length_singleton] at hesp
  rw [Cpu.top, hesp]
  exact h.word ws.length v (List.getElem?_concat_length ..)

/-- The words below the top. -/
theorem Holds.init {v : Dword} (h : Holds E (ws ++ [v]) s) {i : ℕ} {w : Dword}
    (hw : ws[i]? = some w) : s.mem.load32 (slot E (i + 1)) = w := by
  refine h.word i w ?_
  rw [List.getElem?_append_left (List.getElem?_eq_some_iff.1 hw).1, hw]

/-- Taking the top off leaves the others. -/
theorem Holds.drop {v : Dword} (h : Holds E (ws ++ [v]) s) : Holds E ws s.drop := by
  have hesp := h.esp
  rw [List.length_append, List.length_singleton] at hesp
  refine ⟨by rw [Cpu.drop_esp, hesp, slot_add], fun i w hw => ?_⟩
  rw [Cpu.drop_mem]
  exact h.init hw

/-- Popping a register leaves the others. -/
theorem Holds.popReg {v : Dword} (h : Holds E (ws ++ [v]) s) {r : Reg} (hr : r ≠ .esp) :
    Holds E ws (s.popReg r) :=
  h.drop.congr (by rw [Cpu.popReg_esp _ hr, Cpu.drop_esp]) rfl

/-- The general registers as `PUSHA` lays them out. -/
def saved (s : Cpu) : List Dword :=
  [s.reg .eax, s.reg .ecx, s.reg .edx, s.reg .ebx, s.reg .esp, s.reg .ebp, s.reg .esi, s.reg .edi]

/-- **`PUSHA`** pushes the eight registers and changes none but `ESP`. -/
theorem Holds.pusha (h : Holds E ws s) (hlen : ws.length < 2 ^ 27) :
    Holds E (ws ++ saved s) s.pusha := by
  have h1 := h.push (by omega) (s.reg .eax)
  have h2 := h1.push (by simp; omega) (s.reg .ecx)
  have h3 := h2.push (by simp; omega) (s.reg .edx)
  have h4 := h3.push (by simp; omega) (s.reg .ebx)
  have h5 := h4.push (by simp; omega) (s.reg .esp)
  have h6 := h5.push (by simp; omega) (s.reg .ebp)
  have h7 := h6.push (by simp; omega) (s.reg .esi)
  have h8 := h7.push (by simp; omega) (s.reg .edi)
  simp only [List.append_assoc, List.cons_append, List.nil_append] at h8
  exact h8

/-- **`POPA`** takes the eight registers from the stack, `ESP` apart. -/
theorem Holds.popa {a c d b p q i j : Dword} (h : Holds E (ws ++ [a, c, d, b, p, q, i, j]) s) :
    Holds E ws s.popa ∧ s.popa.reg .eax = a ∧ s.popa.reg .ecx = c ∧ s.popa.reg .edx = d ∧
      s.popa.reg .ebx = b ∧ s.popa.reg .ebp = q ∧ s.popa.reg .esi = i ∧ s.popa.reg .edi = j := by
  have h8 : Holds E (ws ++ [a] ++ [c] ++ [d] ++ [b] ++ [p] ++ [q] ++ [i] ++ [j]) s := by
    simpa only [List.append_assoc, List.cons_append, List.nil_append] using h
  have h7 := h8.popReg (r := .edi) (by decide)
  have h6 := h7.popReg (r := .esi) (by decide)
  have h5 := h6.popReg (r := .ebp) (by decide)
  have h4 := h5.drop
  have h3 := h4.popReg (r := .ebx) (by decide)
  have h2 := h3.popReg (r := .edx) (by decide)
  have h1 := h2.popReg (r := .ecx) (by decide)
  -- no later pop touches a register that has been restored
  refine ⟨h1.popReg (by decide), ?_, ?_, ?_, ?_, ?_, ?_, ?_⟩ <;>
    simp only [Cpu.popa, ne_eq, reduceCtorEq, not_false_eq_true, Cpu.popReg_ne, Cpu.drop_reg,
      Cpu.popReg_self]
  · exact h1.top
  · exact h2.top
  · exact h3.top
  · exact h4.top
  · exact h6.top
  · exact h7.top
  · exact h8.top

/-- **`IRET`** returns to the three doublewords on top of the stack. -/
theorem Holds.iret {f c a : Dword} (h : Holds E (ws ++ [f, c, a]) s) :
    Holds E ws s.iret ∧ s.iret.eip = a ∧ s.iret.cs = c.setWidth 16 ∧ s.iret.eflags = f := by
  have h3 : Holds E (ws ++ [f] ++ [c] ++ [a]) s := by
    simpa only [List.append_assoc, List.cons_append, List.nil_append] using h
  have h2 := h3.drop
  have h1 := h2.drop
  refine ⟨h1.drop.congr rfl rfl, h3.top, ?_, h1.top⟩
  exact congrArg (BitVec.setWidth 16) h2.top

/-! ### The frame pushed on interrupt entry -/

/-- The doublewords pushed on interrupt entry. -/
def entryFrame (errorCode : Option Dword) (s : Cpu) : List Dword :=
  [s.eflags, s.cs.setWidth 32, s.eip] ++ errorCode.toList

/-- Behind an interrupt the frame lies on the stack. -/
theorem holds_interrupt (g : Gate) (errorCode : Option Dword) (s : Cpu) :
    Holds s.esp (entryFrame errorCode s) (interrupt g errorCode s) := by
  have h1 := (holds_nil s).push (by simp) s.eflags
  have h2 := h1.push (by simp) (s.cs.setWidth 32)
  have h3 := h2.push (by simp) s.eip
  rcases errorCode with _ | e
  · exact h3.congr rfl rfl
  · exact (h3.push (by simp) e).congr rfl rfl

/-- An interrupt goes to the offset of its gate. -/
@[simp] theorem interrupt_eip (g : Gate) (errorCode : Option Dword) (s : Cpu) :
    (interrupt g errorCode s).eip = g.offset := rfl

/-- An interrupt changes no register but `ESP`. -/
theorem interrupt_reg (g : Gate) (errorCode : Option Dword) (s : Cpu) {r : Reg} (hr : r ≠ .esp) :
    (interrupt g errorCode s).reg r = s.reg r := by
  rcases errorCode with _ | e
  · show (((s.push s.eflags).push (s.cs.setWidth 32)).push s.eip).reg r = s.reg r
    simp [hr]
  · show ((((s.push s.eflags).push (s.cs.setWidth 32)).push s.eip).push e).reg r = s.reg r
    simp [hr]

/-! ### Calls -/

/-- The argument lies below the return address. -/
theorem Holds.argument {v ret : Dword} (h : Holds E (ws ++ [v] ++ [ret]) s) : argument s = v := by
  have hesp := h.esp
  rw [List.length_append, List.length_append, List.length_singleton, List.length_singleton] at hesp
  rw [X86.argument, hesp, slot_add]
  exact h.init (List.getElem?_concat_length ..)

/-- **The calling convention** of a C function with `args` doublewords of
arguments, when `live` doublewords of the caller's stack above them matter. -/
structure Cdecl (args live : ℕ) (f : Cpu → Cpu) : Prop where
  eip : ∀ e, (f e).eip = e.top
  esp : ∀ e, (f e).esp = e.esp + 4
  cs : ∀ e, (f e).cs = e.cs
  saved : ∀ e, ∀ r ∈ [Reg.ebx, .ebp, .esi, .edi], (f e).reg r = e.reg r
  stack : ∀ e, ∀ i < 4 * live, (f e).mem (e.esp + BitVec.ofNat 32 (4 + 4 * args + i)) =
    e.mem (e.esp + BitVec.ofNat 32 (4 + 4 * args + i))

/-- The function that returns at once. -/
def ret (s : Cpu) : Cpu := s.drop.jump s.top

/-- A function that returns at once keeps to the calling convention. -/
theorem cdecl_ret (args live : ℕ) : Cdecl args live ret where
  eip := fun _ => rfl
  esp := fun e => Cpu.drop_esp e
  cs := fun _ => rfl
  saved := by
    intro e r hr
    have hne : r ≠ .esp := by
      rintro rfl
      exact absurd hr (by decide)
    exact Cpu.drop_reg e hne
  stack := fun _ _ _ => rfl

/-- After the call the return address is gone, the caller's doublewords are
there and the arguments may have changed. -/
theorem Cdecl.holds {live : ℕ} {f : Cpu → Cpu} {as : List Dword} {ret : Dword}
    (hf : Cdecl as.length live f) (h : Holds E (ws ++ as ++ [ret]) s) (hlive : ws.length ≤ live) :
    ∃ bs, bs.length = as.length ∧ Holds E (ws ++ bs) (f s) := by
  have hesp : s.esp = slot E (ws.length + as.length + 1) := by
    rw [h.esp, List.length_append, List.length_append, List.length_singleton]
  refine ⟨List.ofFn fun k : Fin as.length => (f s).mem.load32 (slot E (ws.length + k + 1)),
    by simp, ?_, fun i w hw => ?_⟩
  · rw [hf.esp, hesp, slot_add, List.length_append, List.length_ofFn]
  rcases Nat.lt_or_ge i ws.length with hi | hi
  · rw [List.getElem?_append_left hi] at hw
    have hold := h.word i w (by rw [List.append_assoc, List.getElem?_append_left hi, hw])
    rw [← hold]
    refine Mem.load32_congr fun j hj => ?_
    -- byte `j` of word `i` is this far above the callee's stack pointer
    have hat : slot E (i + 1) + BitVec.ofNat 32 j =
        s.esp + BitVec.ofNat 32 (4 + 4 * as.length + (4 * (ws.length - 1 - i) + j)) := by
      rw [hesp]
      unfold slot
      bv_omega
    rw [hat]
    exact hf.stack s _ (by omega)
  · rw [List.getElem?_append_right hi, List.getElem?_ofFn] at hw
    split_ifs at hw with hlt
    obtain rfl := Option.some.inj hw
    rw [show ws.length + (i - ws.length) = i by omega]

/-! ### One lemma for each instruction -/

section Steps

variable {Sym : Type} (env : Env Sym)

/-- `pusha` pushes the eight registers. -/
theorem Holds.step_pusha (h : Holds E ws s) (hlen : ws.length < 2 ^ 27) :
    Holds E (ws ++ saved s) (step env .pusha s) :=
  (h.pusha hlen).congr rfl rfl

/-- Loading a register leaves the stack. -/
theorem Holds.step_load (h : Holds E ws s) {r : Reg} (hr : r ≠ .esp) (disp : Byte) :
    Holds E ws (step env (.load r disp) s) :=
  h.congr (Cpu.setReg_ne s _ hr.symm) rfl

/-- `mov` from the stack loads the doubleword at the displacement. -/
theorem step_load_reg (s : Cpu) (r : Reg) (disp : Byte) :
    (step env (.load r disp) s).reg r = s.mem.load32 (s.esp + disp.signExtend 32) :=
  Cpu.setReg_self ..

/-- `push` puts the register on top. -/
theorem Holds.step_push (h : Holds E ws s) (hlen : ws.length < 2 ^ 28) (r : Reg) :
    Holds E (ws ++ [s.reg r]) (step env (.push r) s) :=
  (h.push hlen _).congr rfl rfl

/-- `add esp, 4` takes the top off. -/
theorem Holds.step_addEsp {v : Dword} (h : Holds E (ws ++ [v]) s) :
    Holds E ws (step env (.add .esp 4) s) :=
  h.drop.congr rfl rfl

/-- At the entry of a function the return address lies on top. -/
theorem Holds.callEntry (h : Holds E ws s) (hlen : ws.length < 2 ^ 28) (f : Sym) :
    Holds E (ws ++ [s.eip + (Instr.call f).size]) (callEntry env f s) :=
  (h.push hlen _).congr rfl rfl

/-- A call of a C function: its arguments are on the stack again, perhaps changed. -/
theorem Holds.step_call {f : Sym} {as : List Dword} {live : ℕ}
    (hf : Cdecl as.length live (env.body f)) (h : Holds E (ws ++ as) s) (hlive : ws.length ≤ live)
    (hlen : (ws ++ as).length < 2 ^ 28) :
    ∃ bs, bs.length = as.length ∧ Holds E (ws ++ bs) (step env (.call f) s) := by
  have h' := h.callEntry env hlen f
  exact hf.holds h' hlive

/-- `popa` takes eight words off, into the registers but for `ESP`. -/
theorem Holds.step_popa {a c d b p q i j : Dword} (h : Holds E (ws ++ [a, c, d, b, p, q, i, j]) s) :
    Holds E ws (step env .popa s) ∧ (step env .popa s).reg .eax = a ∧
      (step env .popa s).reg .ecx = c ∧ (step env .popa s).reg .edx = d ∧
      (step env .popa s).reg .ebx = b ∧ (step env .popa s).reg .ebp = q ∧
      (step env .popa s).reg .esi = i ∧ (step env .popa s).reg .edi = j := by
  have hstep : step env .popa s = s.popa.jump (s.eip + (Instr.popa : Instr Sym).size) := rfl
  obtain ⟨h', hreg⟩ := h.popa
  rw [hstep, Cpu.jump_reg]
  exact ⟨h'.congr (Cpu.jump_esp ..) (Cpu.jump_mem ..), hreg⟩

/-- `mov al` leaves the stack. -/
theorem Holds.step_movAl (h : Holds E ws s) (b : Byte) : Holds E ws (step env (.movAl b) s) :=
  h.congr rfl rfl

/-- `mov al` changes the low byte of `EAX`. -/
theorem step_movAl_eax (s : Cpu) (b : Byte) :
    (step env (.movAl b) s).reg .eax = (s.reg .eax).extractLsb' 8 24 ++ b :=
  Cpu.setReg_self s .eax _

/-- `mov al` changes no other register. -/
theorem step_movAl_ne (s : Cpu) (b : Byte) {r : Reg} (hr : r ≠ .eax) :
    (step env (.movAl b) s).reg r = s.reg r :=
  Cpu.setReg_ne s _ hr

/-- `out` leaves the stack. -/
theorem Holds.step_outAl (h : Holds E ws s) (port : Byte) : Holds E ws (step env (.outAl port) s) :=
  h.congr rfl rfl

theorem step_outAl_reg (s : Cpu) (port : Byte) (r : Reg) :
    (step env (.outAl port) s).reg r = s.reg r := rfl

/-- `iret` changes no register but `ESP`. -/
theorem step_iret_reg {r : Reg} (hr : r ≠ .esp) : (step env .iret s).reg r = s.reg r := by
  show s.drop.drop.drop.reg r = s.reg r
  rw [Cpu.drop_reg _ hr, Cpu.drop_reg _ hr, Cpu.drop_reg _ hr]

end Steps

end X86
