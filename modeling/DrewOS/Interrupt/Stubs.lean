/-
# The interrupt stubs

`src/kernel/interrupts.asm`.  A gate holds the address of a stub or of a C
function; `leaveHandler` runs what lies there until the handler is left, a stub
to its `iret` and a C function to its `ret`.

`generic_isr_stub` is followed instruction by instruction: what lies on the
stack between `pusha` and `popa`, where the handler's argument comes from, and
what the registers are at the `iret` (`genericIsrStub_calls`,
`genericIsrStub_leaves`).
-/

import DrewOS.Kernel.Interrupts

namespace DrewOS
namespace Interrupt

open ByteMem X86

/-- `generic_isr_stub`. -/
def genericIsrStub : List (Instr Sym) :=
  [.pusha,                  -- save all general-purpose registers
    .load .eax 32,          -- "retrieve interrupt vector from the stack"
    .push .eax,
    .call .genericHandler,
    .add .esp 4,
    .popa,                  -- "restore all registers"
    .movAl 0x20,            -- end of interrupt
    .outAl 0x20,
    .iret]

/-- The macro `isr_err_stub`. -/
def isrErrStub : List (Instr Sym) := [.call .exceptionHandler, .iret]

/-- The macro `isr_no_err_stub`. -/
def isrNoErrStub : List (Instr Sym) := [.call .exceptionHandler, .iret]

/-- The vectors whose stub is made by `isr_err_stub`. -/
def errStubs : List ℕ := [8, 10, 11, 12, 13, 14, 17, 30]

/-- The code of `isr_stub_<v>`. -/
def isrStub (v : Fin 32) : List (Instr Sym) :=
  if errStubs.contains v.val then isrErrStub else isrNoErrStub

/-- The instructions behind a symbol; `none` for a C function. -/
def code : Sym → Option (List (Instr Sym))
  | .genericIsrStub => some genericIsrStub
  | .isrStub v => some (isrStub v)
  | .genericHandler => none
  | .exceptionHandler => none
  | .ps2KbdIrqHandler => none

/-- The kernel's code, with the effect of each C function. -/
def env (L : Layout) (body : Sym → Cpu → Cpu) : Env Sym := ⟨L.addr, body⟩

/-- Run the code at `EIP` until it leaves the handler. -/
def leaveHandler (L : Layout) (body : Sym → Cpu → Cpu) (s : Cpu) : Option Cpu :=
  (L.symAt s.eip).map fun f =>
    match code f with
    | some is => exec (env L body) is s
    | none => body f s

/-- The C functions called by the code at `EIP`, each with the state at its entry. -/
def handlerCalls (L : Layout) (body : Sym → Cpu → Cpu) (s : Cpu) : List (Sym × Cpu) :=
  match L.symAt s.eip with
  | none => []
  | some f =>
    match code f with
    | some is => callsOf (env L body) is s
    | none => [(f, s)]

variable (L : Layout) (body : Sym → Cpu → Cpu)

/-- Behind the gate of the stub, its code is executed. -/
theorem leaveHandler_stub {s : Cpu} (h : s.eip = L.addr .genericIsrStub) :
    leaveHandler L body s = some (exec (env L body) genericIsrStub s) := by
  unfold leaveHandler
  rw [h, L.symAt_addr]
  rfl

/-- The C functions that are called there are those that its code calls. -/
theorem handlerCalls_stub {s : Cpu} (h : s.eip = L.addr .genericIsrStub) :
    handlerCalls L body s = callsOf (env L body) genericIsrStub s := by
  unfold handlerCalls
  rw [h, L.symAt_addr]
  rfl

/-- The state in which the stub reaches its `call`. -/
def beforeCall (s : Cpu) : Cpu :=
  step (env L body) (.push .eax) (step (env L body) (.load .eax 32) (step (env L body) .pusha s))

/-- The state after the stub's `popa`. -/
def afterPopa (s : Cpu) : Cpu :=
  step (env L body) .popa (step (env L body) (.add .esp 4)
    (step (env L body) (.call .genericHandler) (beforeCall L body s)))

/-- The code of the stub up to its `popa`, and what follows. -/
theorem exec_genericIsrStub (s : Cpu) :
    exec (env L body) genericIsrStub s = step (env L body) .iret
      (step (env L body) (.outAl 0x20) (step (env L body) (.movAl 0x20) (afterPopa L body s))) :=
  rfl

variable {L body} {E : Addr} {ws : List Dword} {w : Dword} {s : Cpu}

/-- Before the `call`: the eight saved registers lie between the word that was
on top of the stack and its copy. -/
theorem holds_beforeCall (h : Holds E (ws ++ [w]) s) (hlen : ws.length < 2 ^ 20) :
    Holds E (ws ++ [w] ++ saved s ++ [w]) (beforeCall L body s) := by
  have h1 := h.step_pusha (env L body) (by simp; omega)
  have h2 := h1.step_load (env L body) (r := .eax) (by decide) 32
  have h3 := h2.step_push (env L body) (by simp [saved]; omega) .eax
  -- `mov eax, [esp + 32]` reads past the eight saved registers
  have hat : (step (env L body) .pusha s).esp + (32 : Byte).signExtend 32 =
      slot E (ws.length + 1) := by
    have h32 : (32 : Byte).signExtend 32 = 32 := by decide
    rw [h1.esp, h32, List.length_append, List.length_append]
    unfold slot saved
    simp only [List.length_cons, List.length_nil]
    bv_omega
  have hw : (step (env L body) (.load .eax 32) (step (env L body) .pusha s)).reg .eax = w := by
    rw [step_load_reg, hat]
    refine h1.word ws.length w ?_
    rw [List.append_assoc, List.getElem?_append_right le_rfl, Nat.sub_self]
    rfl
  rw [hw] at h3
  exact h3

/-- **The argument of `generic_handler`.**  The stub makes one call, and passes
what lay on top of the stack when it was entered. -/
theorem genericIsrStub_calls (h : Holds E (ws ++ [w]) s) (hlen : ws.length < 2 ^ 20) :
    ∃ e, callsOf (env L body) genericIsrStub s = [(.genericHandler, e)] ∧ argument e = w :=
  ⟨callEntry (env L body) .genericHandler (beforeCall L body s), rfl,
    ((holds_beforeCall h hlen).callEntry (env L body) (by simp [saved]; omega)
      .genericHandler).argument⟩

/-- **After `popa`** the stack is as the stub found it and the registers are
restored, whatever `generic_handler` has done within the calling convention. -/
theorem holds_afterPopa (hbody : Cdecl 1 (ws.length + 9) (body .genericHandler))
    (h : Holds E (ws ++ [w]) s) (hlen : ws.length < 2 ^ 20) :
    Holds E (ws ++ [w]) (afterPopa L body s) ∧ ∀ r, (afterPopa L body s).reg r = s.reg r := by
  have hbody' : Cdecl [w].length (ws.length + 9) ((env L body).body .genericHandler) := hbody
  obtain ⟨bs, hbs, h4⟩ := (holds_beforeCall h hlen).step_call (env L body) hbody'
    (by simp [saved]) (by simp [saved]; omega)
  obtain ⟨v, rfl⟩ := List.length_eq_one_iff.1 hbs
  obtain ⟨h6, heax, hecx, hedx, hebx, hebp, hesi, hedi⟩ :=
    (h4.step_addEsp (env L body)).step_popa (env L body)
  refine ⟨h6, fun r => ?_⟩
  cases r with
  | eax => exact heax
  | ecx => exact hecx
  | edx => exact hedx
  | ebx => exact hebx
  | esp => exact h6.esp.trans h.esp.symm
  | ebp => exact hebp
  | esi => exact hesi
  | edi => exact hedi

/-- **How the stub leaves**: through the three doublewords it was entered on,
and with `AL` overwritten. -/
theorem genericIsrStub_leaves {f c a : Dword} (hbody : Cdecl 1 11 (body .genericHandler))
    (h : Holds E [f, c, a] s) {u : Cpu} (hu : u = exec (env L body) genericIsrStub s) :
    u.esp = E ∧ u.eip = a ∧ u.cs = c.setWidth 16 ∧ u.eflags = f ∧
      u.reg .eax = (s.reg .eax).extractLsb' 8 24 ++ (0x20 : Byte) ∧
      ∀ r, r ≠ .eax → r ≠ .esp → u.reg r = s.reg r := by
  have h0 : Holds E ([f, c] ++ [a]) s := h
  have hbody' : Cdecl 1 ([f, c].length + 9) (body .genericHandler) := hbody
  obtain ⟨h7, hreg⟩ := holds_afterPopa (L := L) hbody' h0 (by simp)
  have h9 : Holds E ([] ++ [f, c, a]) _ :=
    (h7.step_movAl (env L body) 0x20).step_outAl (env L body) 0x20
  obtain ⟨h10, heip, hcs, hfl⟩ := h9.iret
  rw [exec_genericIsrStub] at hu
  subst hu
  refine ⟨h10.esp.trans (slot_zero E), heip, hcs, hfl, ?_, fun r hax hsp => ?_⟩
  · rw [step_iret_reg _ (by decide), step_outAl_reg, step_movAl_eax, hreg]
  · rw [step_iret_reg _ hsp, step_outAl_reg, step_movAl_ne _ _ _ hax, hreg]

end Interrupt
end DrewOS
