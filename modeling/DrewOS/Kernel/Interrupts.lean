/-
# Interrupt handling in C

`idt_init` and `generic_handler` of `src/kernel/idt.c`, and
`exception_handler` of `src/kernel/isr.c`.
-/

import DrewOS.Kernel.Pic

namespace DrewOS

open ByteMem Effect

/-- `idt_init()`: fill the gates of the exceptions, load the table, set the
interrupt flag. -/
def idtInit (L : Layout) : Kern Unit := do
  modifyKernel fun k => { k with idt := idtInitGates L k.idt }
  lidt
  sti

/-- `generic_handler(vector)`.  The second `println` has a conversion and no
argument for it. -/
def genericHandler (vector : Dword) : Kern Unit := do
  let isr ← picGetIsr
  let irr ← picGetIrr
  println "INTERRUPT %d (%x), isr = %x, irr = %x"
    [.int vector, .int vector, .int (isr.setWidth 32), .int (irr.setWidth 32)]
  let k ← getKernel
  onlyIf (k.idt.handlerAt vector ≠ 0) do
    println "A handler has been attached to vector %x and will be invoked." []
    invoke (k.idt.handlerAt vector)

/-- `exception_handler()`. -/
def exceptionHandler : Kern Unit := println "INTERRUPT stub" []

/-- The handlers invoked, in order. -/
def invoked (log : List Event) : List Addr :=
  log.filterMap fun e => match e with
    | .invoke h => some h
    | _ => none

variable {ε : Type}

/-- **What `generic_handler` invokes**: the handler found in the table, once, and
nothing when the entry is `NULL`. -/
theorem invoked_genericHandler (b : Bus ε) (vector : Dword) (w : World ε) :
    invoked ((genericHandler vector).run (machine b) w).2.log =
      invoked w.log ++
        if w.kernel.idt.handlerAt vector ≠ 0 then [w.kernel.idt.handlerAt vector] else [] := by
  unfold genericHandler picGetIsr picGetIrr picGetIrqReg println onlyIf
  simp only [Prog.run_bind, run_writeByte, run_readByte, run_printMessage, run_getKernel,
    Prog.pure_eq, Prog.run_ret, World.say_kernel, afterInb_kernel, afterOutb_kernel]
  split_ifs with h
  · simp [Prog.run_bind, invoked]
  · simp [invoked]

end DrewOS
