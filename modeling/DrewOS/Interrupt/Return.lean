/-
# How an interrupt returns

An interrupt should not be noticed by the code it interrupts.  The stub of the
IRQs restores everything and then sends the end-of-interrupt command, for which
it loads `AL`; the interrupted code finds its `EAX` changed unless the low byte
happened to be `0x20` (`irq_resumed_iff`).

No exception returns to where it was raised (`exception_not_resumed`).  The
gates without an error code hold the address of the C function
`generic_handler`, whose `ret` takes `EIP` from the frame and leaves `CS` and
`EFLAGS` on the stack; the stubs of the others, which are the same for both
kinds of exception, leave the error code on the stack, and their `iret` takes
it for `EIP`.
-/

import DrewOS.Interrupt.Stubs

namespace DrewOS
namespace Interrupt

open ByteMem X86

/-! ### Interrupt requests -/

/-- `mov al, 0x20` changes nothing exactly when `AL` is `0x20`. -/
theorem movAl_eq_self_iff (v : Dword) (b : Byte) :
    v.extractLsb' 8 24 ++ b = v ↔ v.setWidth 8 = b := by
  constructor
  · intro h
    rw [← h]
    exact BitVec.setWidth_append_eq_right
  · rintro rfl
    have hlow : v.setWidth 8 = v.extractLsb' 0 8 := by
      ext i hi
      simp
    rw [hlow]
    exact @BitVec.extractLsb'_append_extractLsb' 24 8 v

/-- **An IRQ is transparent exactly when `AL` was `0x20`.**  For every handler
installed, every interrupted state and every behaviour of `generic_handler` and
the handler within the calling convention, the run of the stub to its `iret`
restores `EIP`, `CS`, `EFLAGS`, `ESP` and all general registers if and only if
the low byte of the interrupted `EAX` is `0x20`. -/
theorem irq_resumed_iff (L : Layout) (body : Sym → Cpu → Cpu)
    (hbody : Cdecl 1 11 (body .genericHandler)) (t : Idt) (v : Byte) (h : FnPtr) (s : Cpu) :
    (∃ u, leaveHandler L body
        (interrupt ((idtInstallIrqHandler L v h t).gate v) none s) = some u ∧ Resumed s u) ↔
      (s.reg .eax).setWidth 8 = 0x20 := by
  rw [gate_idtInstallIrqHandler, leaveHandler_stub L body rfl]
  obtain ⟨hesp, heip, hcs, hfl, heax, hreg⟩ := genericIsrStub_leaves (L := L) hbody
    (holds_interrupt (externalGate (L.addr .genericIsrStub)) none s) rfl
  rw [interrupt_reg _ _ _ (by decide)] at heax
  rw [← movAl_eq_self_iff, ← heax]
  constructor
  · rintro ⟨u, hu, hr⟩
    obtain rfl := Option.some.inj hu
    exact hr.reg .eax
  · intro hax
    refine ⟨_, rfl, heip, ?_, hfl, fun r => ?_⟩
    · rw [hcs]
      exact BitVec.setWidth_setWidth_of_le _ (by decide)
    · by_cases hr : r = .eax
      · exact hr ▸ hax
      by_cases hsp : r = .esp
      · exact hsp ▸ hesp
      · rw [hreg r hr hsp, interrupt_reg _ _ _ hsp]

/-- A processor that is interrupted with `EAX = eax`. -/
def cpuWith (eax : Dword) : Cpu where
  reg := fun r => if r = .eax then eax else 0x8000
  eip := 0x1234
  cs := 0x08
  eflags := 0x202
  mem := fun _ => 0

/-- With `AL = 0x20` and code that returns at once, everything is restored. -/
theorem irq_resumed_iff_ret :
    (∃ u, leaveHandler Layout.sample (fun _ => ret)
        (interrupt ((idtInstallIrqHandler Layout.sample 0x21
          (Layout.sample.ptr .ps2KbdIrqHandler) emptyIdt).gate 0x21) none (cpuWith 0x20)) = some u ∧
        Resumed (cpuWith 0x20) u) ↔ ((cpuWith 0x20).reg .eax).setWidth 8 = 0x20 :=
  irq_resumed_iff Layout.sample (fun _ => ret) (cdecl_ret 1 11) emptyIdt 0x21
    (Layout.sample.ptr .ps2KbdIrqHandler) (cpuWith 0x20)

/-- **An interrupt that is noticed**: the keyboard's interrupt, whose handler
does nothing at all, turns `EAX = 0` into `EAX = 0x20`. -/
theorem irq_not_resumed :
    ¬ ∃ u, leaveHandler Layout.sample (fun _ => ret)
        (interrupt ((idtInstallIrqHandler Layout.sample 0x21
          (Layout.sample.ptr .ps2KbdIrqHandler) emptyIdt).gate 0x21) none (cpuWith 0)) = some u ∧
        Resumed (cpuWith 0) u := by
  rintro ⟨u, hu, hr⟩
  rw [gate_idtInstallIrqHandler, leaveHandler_stub Layout.sample _ rfl] at hu
  have hbody : Cdecl 1 11 ((fun _ => ret : Sym → Cpu → Cpu) .genericHandler) := cdecl_ret 1 11
  obtain ⟨-, -, -, -, heax, -⟩ := genericIsrStub_leaves (L := Layout.sample) hbody
    (holds_interrupt (externalGate (Layout.sample.addr .genericIsrStub)) none (cpuWith 0))
    (Option.some.inj hu).symm
  rw [hr.reg .eax, interrupt_reg _ _ _ (by decide)] at heax
  exact absurd heax (by decide)

/-! ### Exceptions -/

/-- The exceptions with an error code. -/
def errorVectors : List ℕ := [8, 10, 11, 12, 13, 14, 17]

/-- The error code that the processor pushes, for the vectors that have one. -/
def errorCode (v : Fin 32) (e : Dword) : Option Dword :=
  if errorVectors.contains v.val then some e else none

/-- The gates that `idt_init` takes from the table are those of the exceptions with
an error code. -/
theorem errorVectors_contains (v : Fin 32) : errorVectors.contains v.val ↔ v ∈ tableVectors := by
  revert v
  decide

/-- The vectors of the table push an error code. -/
theorem errorCode_of_mem {v : Fin 32} (hv : v ∈ tableVectors) (e : Dword) :
    errorCode v e = some e :=
  if_pos ((errorVectors_contains v).2 hv)

/-- The other vectors push none. -/
theorem errorCode_of_not_mem {v : Fin 32} (hv : v ∉ tableVectors) (e : Dword) :
    errorCode v e = none :=
  if_neg fun h => hv ((errorVectors_contains v).1 h)

/-- Behind `idt_init`, each exception has the gate of its stub. -/
theorem gate_exception (L : Layout) (t : Idt) (v : Fin 32) :
    (idtInitGates L t).gate (BitVec.ofNat 8 v.val) = externalGate (L.addr (initialIsr v)) := by
  have hv : (BitVec.ofNat 8 v.val).toNat = v.val := by
    rw [BitVec.toNat_ofNat]
    omega
  have hlt : (BitVec.ofNat 8 v.val).toNat < 32 := by omega
  have hfin : (⟨(BitVec.ofNat 8 v.val).toNat, hlt⟩ : Fin 32) = v := Fin.ext hv
  rw [gate_idtInitGates, dif_pos hlt, hfin]

/-- Both macros make the same stub. -/
theorem isrStub_eq (v : Fin 32) : isrStub v = [.call .exceptionHandler, .iret] := by
  unfold isrStub
  split_ifs <;> rfl

variable {L : Layout} {body : Sym → Cpu → Cpu}

/-- **A gate with the address of a C function.**  `generic_handler` returns to
the interrupted instruction and leaves `CS` and `EFLAGS` on the stack. -/
theorem genericHandler_leaves (hg : Cdecl 1 1 (body .genericHandler)) (g : Gate) (s : Cpu) :
    (body .genericHandler (interrupt g none s)).eip = s.eip ∧
      (body .genericHandler (interrupt g none s)).esp = slot s.esp 2 := by
  have h : Holds s.esp ([s.eflags, s.cs.setWidth 32] ++ [s.eip]) (interrupt g none s) :=
    holds_interrupt g none s
  refine ⟨(hg.eip _).trans h.top, ?_⟩
  rw [hg.esp, h.esp]
  exact slot_add ..

/-- **A stub on top of an error code.**  Its `iret` takes the error code for
`EIP`, the interrupted `EIP` for `CS` and the interrupted `CS` for `EFLAGS`. -/
theorem isrStub_leaves (he : Cdecl 0 4 (body .exceptionHandler)) (v : Fin 32) (g : Gate)
    (e : Dword) (s : Cpu) {u : Cpu}
    (hu : u = exec (env L body) (isrStub v) (interrupt g (some e) s)) :
    u.eip = e ∧ u.cs = s.eip.setWidth 16 ∧ u.eflags = s.cs.setWidth 32 ∧ u.esp = slot s.esp 1 := by
  have h : Holds s.esp ([s.eflags, s.cs.setWidth 32, s.eip, e] ++ []) (interrupt g (some e) s) :=
    holds_interrupt g (some e) s
  have he' : Cdecl ([] : List Dword).length 4 ((env L body).body .exceptionHandler) := he
  obtain ⟨bs, hbs, h1⟩ := h.step_call (env L body) he' (by simp) (by simp)
  obtain rfl := List.length_eq_zero_iff.1 hbs
  have h2 : Holds s.esp ([s.eflags] ++ [s.cs.setWidth 32, s.eip, e]) _ := h1
  obtain ⟨h3, heip, hcs, hfl⟩ := h2.iret
  rw [isrStub_eq] at hu
  subst hu
  exact ⟨heip, hcs, hfl, h3.esp⟩

/-- The stack pointer is not back where it was. -/
theorem slot_ne_self (E : Addr) {i : ℕ} (h : 0 < i) (hi : i < 2 ^ 28) : slot E i ≠ E := fun he => by
  have := slot_inj hi (by omega) (he.trans (slot_zero E).symm)
  omega

/-- The stack pointer with which the code in gate `v` leaves: above one word that was
pushed, or above two. -/
theorem exception_esp (hg : Cdecl 1 1 (body .genericHandler))
    (he : Cdecl 0 4 (body .exceptionHandler)) (t : Idt) (v : Fin 32) (e : Dword) (s : Cpu) {u : Cpu}
    (hu : leaveHandler L body (interrupt ((idtInitGates L t).gate (BitVec.ofNat 8 v.val))
      (errorCode v e) s) = some u) :
    u.esp = slot s.esp 1 ∨ u.esp = slot s.esp 2 := by
  have hsym : L.symAt (L.addr (initialIsr v)) = some (initialIsr v) := L.symAt_addr _
  rw [gate_exception, leaveHandler, interrupt_eip, externalGate, hsym] at hu
  by_cases hv : v ∈ tableVectors
  · left
    rw [initialIsr, if_pos hv, errorCode_of_mem hv] at hu
    obtain ⟨-, -, -, hesp⟩ := isrStub_leaves he v _ e s (Option.some.inj hu).symm
    exact hesp
  · right
    rw [initialIsr, if_neg hv, errorCode_of_not_mem hv] at hu
    rw [← (genericHandler_leaves hg _ s).2]
    exact congrArg Cpu.esp (Option.some.inj hu).symm

/-- **No exception returns to where it was raised.**  For every exception
vector, every interrupted state and every behaviour of the C functions within
the calling convention, running the code that `idt_init` has put into the gate
does not resume the interrupted code: `ESP` ends too low. -/
theorem exception_not_resumed (L : Layout) (body : Sym → Cpu → Cpu)
    (hg : Cdecl 1 1 (body .genericHandler)) (he : Cdecl 0 4 (body .exceptionHandler)) (t : Idt)
    (v : Fin 32) (e : Dword) (s : Cpu) :
    ¬ ∃ u, leaveHandler L body (interrupt ((idtInitGates L t).gate (BitVec.ofNat 8 v.val))
      (errorCode v e) s) = some u ∧ Resumed s u := by
  rintro ⟨u, hu, hr⟩
  rcases exception_esp hg he t v e s hu with hesp | hesp
  · exact slot_ne_self s.esp Nat.one_pos (by decide) (hesp.symm.trans hr.esp)
  · exact slot_ne_self s.esp Nat.two_pos (by decide) (hesp.symm.trans hr.esp)

/-- The page fault (vector 14) of `cpuWith 0`, with error code 2. -/
theorem exception_not_resumed_pageFault :
    ¬ ∃ u, leaveHandler Layout.sample (fun _ => ret)
      (interrupt ((idtInitGates Layout.sample emptyIdt).gate (BitVec.ofNat 8 (14 : Fin 32).val))
        (errorCode 14 2) (cpuWith 0)) = some u ∧ Resumed (cpuWith 0) u :=
  exception_not_resumed Layout.sample (fun _ => ret) (cdecl_ret 1 1) (cdecl_ret 0 4) emptyIdt 14 2
    (cpuWith 0)

/-- **A breakpoint does not return** to the instruction after it (vector 3): its
gate holds the C function. -/
theorem breakpoint_not_resumed :
    ¬ ∃ u, leaveHandler Layout.sample (fun _ => ret)
      (interrupt ((idtInitGates Layout.sample emptyIdt).gate (BitVec.ofNat 8 (3 : Fin 32).val))
        (errorCode 3 0) (cpuWith 0)) = some u ∧ Resumed (cpuWith 0) u := by
  rintro ⟨u, hu, hr⟩
  have hg : Cdecl 1 1 ((fun _ => ret : Sym → Cpu → Cpu) .genericHandler) := cdecl_ret 1 1
  rcases exception_esp hg (cdecl_ret 0 4) emptyIdt 3 0 (cpuWith 0) hu with hesp | hesp
  · exact slot_ne_self _ Nat.one_pos (by decide) (hesp.symm.trans hr.esp)
  · exact slot_ne_self _ Nat.two_pos (by decide) (hesp.symm.trans hr.esp)

end Interrupt
end DrewOS
