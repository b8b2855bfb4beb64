/-
# The code behind a software interrupt

`machine b` logs an `int` and does no more.  On `trapping b trap` the code `trap` is run as
well, in one step of the machine; `genericStub` is what stands behind the gates that
`idt_install_irq_handler` fills, `generic_isr_stub` of `src/kernel/interrupts.asm`.  It
takes the interrupted `EIP` for the vector, so what it invokes is the word at
`handlers[EIP]`, beyond the end of the table.  Where that word is `NULL` nothing is
invoked, and the stub reports the registers of the chips and acknowledges the interrupt
(`run_genericStub`).

No machine of this development takes a hardware interrupt.
-/

import DrewOS.Kernel.Interrupts
import DrewOS.Kernel.Trace

namespace DrewOS

open ByteMem Effect

variable {ε α : Type}

/-! ### Machines with a trap -/

/-- The machine over the bus `b` on which a software interrupt runs `trap`. -/
def trapping (b : Bus ε) (trap : Kern Unit) : Machine io (World ε)
  | .int v, w => ((), (trap.run (machine b) (w.say (.int v))).2)
  | o, w => machine b o w

/-- Without code behind the interrupt, this is the machine that logs it. -/
theorem trapping_ret (b : Bus ε) : trapping b (.ret ()) = machine b := by
  funext o w
  cases o <;> rfl

/-- A trap makes no difference to code that raises no interrupt. -/
theorem agree_trapping (b : Bus ε) (trap : Kern Unit) {F : Kernel → Kernel → Prop} :
    Prog.Agree (Op.Within Unraised F) (machine b) (trapping b trap) := by
  intro o w ho
  cases o with
  | int v => exact absurd ho id
  | _ => rfl

/-- Such code runs as it does without the trap. -/
theorem run_trapping (b : Bus ε) (trap : Kern Unit) {F : Kernel → Kernel → Prop} {p : Kern α}
    (hp : Stays Unraised F p) (w : World ε) : p.run (trapping b trap) w = p.run (machine b) w :=
  ((agree_trapping b trap).run hp w).symm

/-- Code that raises no interrupt is right over the trap if it is over the machine. -/
theorem sat_trapping {b : Bus ε} {trap : Kern Unit} {F : Kernel → Kernel → Prop}
    {I : World ε → Prop} {Q : α → World ε → Prop} {p : Kern α} {w : World ε}
    (hp : Stays Unraised F p) (h : Prog.Sat (machine b) I Q p w) :
    Prog.Sat (trapping b trap) I Q p w :=
  (agree_trapping b trap).sat hp h

/-- **What every operation keeps, the trap keeps**, so the machine with the trap does. -/
theorem trapping_keeps {b : Bus ε} {R : World ε → World ε → Prop} (hrefl : ∀ s, R s s)
    (htrans : ∀ s t u, R s t → R t u → R s u) (hstep : ∀ o s, R s (machine b o s).2)
    (trap : Kern Unit) (o : Op) (s : World ε) : R s (trapping b trap o s).2 := by
  cases o with
  | int v =>
    refine htrans _ _ _ (hstep (.int v) s) ?_
    exact Prog.run_of_always (J := fun _ => True) hrefl htrans (fun o t _ => hstep o t)
      (Prog.always_true trap) _
  | _ => exact hstep _ s

/-- **The log only grows**, whatever stands behind the interrupt. -/
theorem sat_grows_trapping (b : Bus ε) (trap : Kern Unit) (p : Kern α) (w : World ε) :
    Prog.Sat (trapping b trap) (fun t => w.log <+: t.log) (fun _ t => w.log <+: t.log) p w :=
  Prog.sat_of_always (R := fun s t : World ε => s.log <+: t.log) (fun _ => List.prefix_rfl)
    (fun _ _ _ => List.IsPrefix.trans) (fun o s _ => trapping_keeps
      (R := fun s t : World ε => s.log <+: t.log) (fun _ => List.prefix_rfl)
      (fun _ _ _ => List.IsPrefix.trans) (log_grows b) trap o s) (Prog.always_true p) w

/-- The interrupt is in the log when its code has run. -/
theorem int_mem_log (b : Bus ε) (trap : Kern Unit) (v : Byte) (w : World ε) :
    .int v ∈ (trapping b trap (.int v) w).2.log := by
  have hgrown : (w.say (.int v)).log <+: (trap.run (machine b) (w.say (.int v))).2.log :=
    Prog.run_of_always (J := fun _ => True) (R := fun s t : World ε => s.log <+: t.log)
      (fun _ => List.prefix_rfl) (fun _ _ _ => List.IsPrefix.trans) (fun o t _ => log_grows b o t)
      (Prog.always_true trap) _
  exact hgrown.subset (List.mem_append_right _ List.mem_cons_self)

/-! ### The stub of the interrupt requests -/

/-- `generic_isr_stub`, entered with the return address `eip`.  The registers that it saves
and restores, and `AL`, which it does not restore, are no part of this machine. -/
def genericStub (eip : Dword) : Kern Unit := do
  genericHandler eip
  writeByte PIC_MASTER_COMMAND PIC_EOI

/-- The address is no vector, and behind the table of the handlers stands `NULL` where it
leads. -/
structure Idt.NullAt (t : Idt) (eip : Dword) : Prop where
  beyond : 256 ≤ eip.toNat
  null : t.pastHandlers eip = 0

/-- The two ports of the chips that the stub reads and commands. -/
def commandPorts : List Word := [PIC_MASTER_COMMAND, PIC_SLAVE_COMMAND]

/-- What the stub does when it invokes nothing. -/
def Reporting : Event → Prop
  | .inb port _ => port ∈ commandPorts
  | .outb port _ => port ∈ commandPorts
  | .print m => ∃ vector isr irr, m = ⟨"INTERRUPT %d (%x), isr = %x, irr = %x", .white, .black,
      [.int vector, .int vector, .int isr, .int irr], true⟩
  | _ => False

section Null

variable {t : Idt} {eip : Dword}

/-- `NULL` stands where the stub looks for its handler. -/
theorem Idt.NullAt.handlerAt (h : t.NullAt eip) : t.handlerAt eip = 0 := by
  rw [Idt.handlerAt, if_neg (Nat.not_lt.2 h.beyond)]
  exact h.null

/-- What lies behind the table does not depend on the gates or the handlers. -/
theorem Idt.NullAt.congr {u : Idt} (h : t.NullAt eip) (hu : u.pastHandlers = t.pastHandlers) :
    u.NullAt eip :=
  ⟨h.beyond, by rw [hu]; exact h.null⟩

/-- `idt_init` assigns nothing behind the table. -/
theorem pastHandlers_idtInitGates (L : Layout) (t : Idt) :
    (idtInitGates L t).pastHandlers = t.pastHandlers := by
  have hloop : ∀ (vs : List (Fin 32)) (u : Idt), (vs.foldl (fun u v =>
      idtSetDescriptor (BitVec.ofNat 8 v.val) (L.addr (initialIsr v)) 0x8e u) u).pastHandlers =
        u.pastHandlers := by
    intro vs
    induction vs with
    | nil => exact fun _ => rfl
    | cons v vs ih => exact fun u => ih _
  exact hloop _ t

end Null

/-- The registers of the chips are read. -/
theorem stays_picGetIrqReg {E : Event → Prop} {F : Kernel → Kernel → Prop}
    (hin : ∀ port ∈ commandPorts, ∀ r, E (.inb port r))
    (hout : ∀ port ∈ commandPorts, ∀ d, E (.outb port d)) (ocw3 : Byte) :
    Stays E F (picGetIrqReg ocw3) :=
  (stays_writeByte (hout _ (by decide) _)).bind fun _ =>
    (stays_writeByte (hout _ (by decide) _)).bind fun _ =>
    (stays_readByte (hin _ (by decide))).bind fun _ =>
    (stays_readByte (hin _ (by decide))).bind fun _ => stays_pure _

/-- The stub commands and reads the chips, prints, and follows a pointer. -/
theorem stays_genericStub {E : Event → Prop} {F : Kernel → Kernel → Prop}
    (hin : ∀ port ∈ commandPorts, ∀ r, E (.inb port r))
    (hout : ∀ port ∈ commandPorts, ∀ d, E (.outb port d)) (hprint : ∀ m, E (.print m))
    (hinvoke : ∀ h, E (.invoke h)) (eip : Dword) : Stays E F (genericStub eip) := by
  have hinvoked : ∀ h, Stays E F (invoke h) := fun h => ⟨hinvoke h, fun _ => trivial⟩
  refine Stays.bind ?_ fun _ => stays_writeByte (hout _ (by decide) _)
  exact (stays_picGetIrqReg hin hout _).bind fun _ => (stays_picGetIrqReg hin hout _).bind fun _ =>
    (stays_printMessage (hprint _)).bind fun _ => stays_getKernel.bind fun _ =>
    stays_onlyIf _ fun _ => (stays_printMessage (hprint _)).bind fun _ => hinvoked _

/-- `generic_handler` up to its look at the table. -/
def reportRegisters (vector : Dword) : Kern Unit := do
  let isr ← picGetIsr
  let irr ← picGetIrr
  println "INTERRUPT %d (%x), isr = %x, irr = %x"
    [.int vector, .int vector, .int (isr.setWidth 32), .int (irr.setWidth 32)]

/-- `generic_handler` reports, and calls through the word at `handlers[vector]` unless
that is 0. -/
theorem genericHandler_eq (vector : Dword) : genericHandler vector =
    reportRegisters vector >>= fun _ => getKernel >>= fun k =>
      onlyIf (k.idt.handlerAt vector ≠ 0) (println
        "A handler has been attached to vector %x and will be invoked." [] >>= fun _ =>
          invoke (k.idt.handlerAt vector)) := by
  unfold genericHandler reportRegisters
  simp only [Prog.bind_bind]

/-- Reporting reads the registers of the PICs and prints. -/
theorem stays_reportRegisters (vector : Dword) :
    Stays Reporting (fun k k' => k' = k) (reportRegisters vector) :=
  (stays_picGetIrqReg (fun _ h _ => h) (fun _ h _ => h) _).bind fun _ =>
    (stays_picGetIrqReg (fun _ h _ => h) (fun _ h _ => h) _).bind fun _ =>
    stays_printMessage ⟨_, _, _, rfl⟩

/-- Reporting returns. -/
theorem run_reportRegisters (b : Bus ε) (vector : Dword) (w : World ε) :
    ∃ t, (reportRegisters vector).run (machine b) w = (some (), t) ∧
      Extends Reporting (fun k k' => k' = k) w t :=
  ⟨_, rfl, (sat_stays_same b (stays_reportRegisters vector) w).run rfl⟩

/-- **Where the word behind the table is `NULL`, the stub reports and acknowledges**: it
returns, invokes nothing and assigns nothing. -/
theorem run_genericStub (b : Bus ε) {eip : Dword} {w : World ε}
    (h : w.kernel.idt.handlerAt eip = 0) :
    ∃ t, (genericStub eip).run (machine b) w = (some (), t) ∧
      Extends Reporting (fun k k' => k' = k) w t := by
  obtain ⟨u, hreport, hu⟩ := run_reportRegisters b eip w
  have hnull : ¬ u.kernel.idt.handlerAt eip ≠ 0 := by
    rw [hu.kernel]
    exact not_not.2 h
  have heoi : (Op.writeByte PIC_MASTER_COMMAND PIC_EOI).Within Reporting fun k k' => k' = k :=
    List.mem_cons_self ..
  refine ⟨_, ?_, hu.trans (fun _ _ _ h h' => h'.trans h)
    (extends_step (F := fun k k' => k' = k) (fun _ => rfl) b heoi u)⟩
  unfold genericStub
  rw [genericHandler_eq, Prog.bind_bind, Prog.run_bind_of_some _ hreport, Prog.bind_bind,
    Prog.run_bind_of_some _ (run_getKernel b u), onlyIf, if_neg hnull]
  rfl

/-! ### Code that relies on the word behind the table -/

/-- Neither a call through a pointer nor `sti`. -/
def Meek : Event → Prop
  | .invoke _ => False
  | .sti => False
  | _ => True

/-- What lies behind the table is not assigned. -/
def SamePast (k k' : Kernel) : Prop := k'.idt.pastHandlers = k.idt.pastHandlers

/-- From `s` to `t` no pointer was followed and the interrupt flag not changed, and the
word behind the table is still `NULL`. -/
structure Unfollowed (eip : Dword) (s t : World ε) : Prop where
  null : t.kernel.idt.NullAt eip
  iflag : t.iflag = s.iflag
  invoked : ∀ h, .invoke h ∈ t.log → .invoke h ∈ s.log

/-- One stretch of a run after the other. -/
theorem Unfollowed.trans {eip : Dword} {s t u : World ε} (h : Unfollowed eip s t)
    (h' : Unfollowed eip t u) : Unfollowed eip s u :=
  ⟨h'.null, h'.iflag.trans h.iflag, fun a ha => h.invoked a (h'.invoked a ha)⟩

/-- Not `sti`. -/
def Unenabling : Event → Prop
  | .sti => False
  | _ => True

/-- Code that is meek does not execute `sti`. -/
theorem unenabling_of_meek {e : Event} (he : Meek e) : Unenabling e := by
  cases e with
  | sti => exact he
  | _ => trivial

/-- The interrupt flag is changed by `sti` alone. -/
theorem iflag_of_within (b : Bus ε) {F : Kernel → Kernel → Prop} {o : Op}
    (ho : o.Within Unenabling F) (w : World ε) : (machine b o w).2.iflag = w.iflag := by
  cases o with
  | sti => exact absurd ho id
  | _ => rfl

/-- The stub leaves the interrupt flag. -/
theorem iflag_genericStub (b : Bus ε) (eip : Dword) (w : World ε) :
    ((genericStub eip).run (machine b) w).2.iflag = w.iflag :=
  Prog.run_of_always (R := fun s t : World ε => t.iflag = s.iflag) (fun _ => rfl)
    (fun _ _ _ h h' => h'.trans h) (fun _ s ho => iflag_of_within (F := fun _ _ => True) b ho s)
    (stays_genericStub (fun _ _ _ => trivial) (fun _ _ _ => trivial) (fun _ => trivial)
      (fun _ => trivial) eip) w

/-- One operation other than an interrupt. -/
theorem unfollowed_step (b : Bus ε) {eip : Dword} {o : Op} (ho : o.Within Meek SamePast)
    {w : World ε} (hw : w.kernel.idt.NullAt eip) : Unfollowed eip w (machine b o w).2 := by
  have hflag := iflag_of_within b (ho.mono (fun _ => unenabling_of_meek) fun _ _ => id) w
  obtain ⟨⟨l, hl, hmeek⟩, hpast⟩ := extends_step (F := SamePast) (fun _ => rfl) b ho w
  refine ⟨hw.congr hpast, hflag, fun h hh => ?_⟩
  rw [hl] at hh
  exact (List.mem_append.1 hh).elim id fun hh => absurd (hmeek _ hh) id

/-- **Code that relies on the word behind the table**, with the stub that its interrupts
run. -/
theorem unfollowed_of_run (b : Bus ε) {eip : Dword} {p : Kern α} (hp : Stays Meek SamePast p)
    {w t : World ε} {a : α} (hw : w.kernel.idt.NullAt eip)
    (h : p.run (trapping b (genericStub eip)) w = (some a, t)) : Unfollowed eip w t := by
  refine (Prog.sat_of_always
    (R := fun s t : World ε => s.kernel.idt.NullAt eip → Unfollowed eip s t)
    (fun _ hs => ⟨hs, rfl, fun _ => id⟩)
    (fun _ _ _ h h' hs => (h hs).trans (h' (h hs).null)) (fun o s ho hs => ?_) hp w).run h hw
  cases o with
  | int v =>
    have hsaid : Unfollowed eip s (s.say (.int v)) := unfollowed_step b ho hs
    refine hsaid.trans ?_
    obtain ⟨u, hrun, ⟨l, hl, hreport⟩, hkernel⟩ := run_genericStub b hsaid.null.handlerAt
    have hflag := iflag_genericStub b eip (s.say (.int v))
    rw [hrun] at hflag
    show Unfollowed eip _ ((genericStub eip).run (machine b) (s.say (.int v))).2
    rw [hrun]
    refine ⟨hsaid.null.congr (congrArg (fun k => k.idt.pastHandlers) hkernel), hflag, ?_⟩
    intro h hh
    rw [hl] at hh
    exact (List.mem_append.1 hh).elim id fun hh => absurd (hreport _ hh) id
  | _ => exact unfollowed_step b ho hs

end DrewOS
