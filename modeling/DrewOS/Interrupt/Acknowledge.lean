/-
# Who acknowledges an interrupt

`generic_isr_stub` ends with an end of interrupt for the master, whatever the line.
An interrupt of the slave is in service on both chips, so the slave's bit stays
when the handler leaves the slave alone (`acknowledged_iff`); `pic_send_eoi` would
have cleared both (`clear_picSendEoi`).

The stub is followed from the gate to its `iret`: what it calls and what it writes,
in order, with the effect of each on the chips.  Behind a function pointer there
may be any code.
-/

import DrewOS.Chips.Cascade
import DrewOS.Interrupt.Dispatch
import DrewOS.Effect.Fuel
import DrewOS.Kernel.Trap

namespace DrewOS
namespace Interrupt

open ByteMem Effect X86 Cascade

/-! ### What the stub does to the machine -/

/-- A call or an output of the code of an interrupt. -/
inductive StubEvent where
  | call (f : Sym) (e : Cpu)
  | out (port al : Byte)

/-- The calls and the outputs of straight-line code, in order. -/
def eventsOf (env : Env Sym) : List (Instr Sym) → Cpu → List StubEvent
  | [], _ => []
  | .call f :: is, s => .call f (callEntry env f s) :: eventsOf env is (step env (.call f) s)
  | .outAl port :: is, s =>
    .out port ((s.reg .eax).setWidth 8) :: eventsOf env is (step env (.outAl port) s)
  | i :: is, s => eventsOf env is (step env i s)

/-- Those of the code at `EIP`. -/
def handlerEvents (L : Layout) (body : Sym → Cpu → Cpu) (s : Cpu) : List StubEvent :=
  match L.symAt s.eip with
  | none => []
  | some f =>
    match code f with
    | some is => eventsOf (env L body) is s
    | none => [.call f s]

/-- The code with `H h` in place of a call of the function at `h`. -/
def follow (H : Addr → Kern Unit) {α : Type} : Kern α → Kern α
  | .ret a => .ret a
  | .cut => .cut
  | .ask (.invoke h) k => H h >>= fun _ => follow H (k ())
  | .ask o k => .ask o fun r => follow H (k r)

/-- The code behind an event; `H` is the code at an address. -/
def StubEvent.code (L : Layout) (H : Addr → Kern Unit) : StubEvent → Kern Unit
  | .call .genericHandler e => follow H (genericHandler (argument e))
  | .call .exceptionHandler _ => exceptionHandler
  | .call f _ => H (L.addr f)
  | .out port al => writeByte (port.setWidth 16) al

/-- One after the other. -/
def codeOf (L : Layout) (H : Addr → Kern Unit) : List StubEvent → Kern Unit
  | [] => .ret ()
  | e :: es => e.code L H >>= fun _ => codeOf L H es

variable (L : Layout) (body : Sym → Cpu → Cpu)

/-- **The stub calls `generic_handler` and acknowledges the interrupt to the master**,
and does nothing else. -/
theorem handlerEvents_stub {s : Cpu} (h : s.eip = L.addr .genericIsrStub) :
    ∃ e, handlerEvents L body s = [.call .genericHandler e, .out 0x20 0x20] := by
  unfold handlerEvents
  rw [h, L.symAt_addr]
  refine ⟨callEntry (env L body) .genericHandler (beforeCall L body s), ?_⟩
  have hal : ((step (env L body) (.movAl 0x20) (afterPopa L body s)).reg .eax).setWidth 8 =
      (0x20 : Byte) := by
    rw [step_movAl_eax]
    exact BitVec.setWidth_append_eq_right
  exact congrArg (fun al => [StubEvent.call .genericHandler _, .out 0x20 al]) hal

/-- Entered through a gate, it passes the interrupted `EIP`. -/
theorem handlerEvents_gate (s : Cpu) :
    ∃ e, handlerEvents L body (interrupt (externalGate (L.addr .genericIsrStub)) none s) =
      [.call .genericHandler e, .out 0x20 0x20] ∧ argument e = s.eip := by
  set entered := interrupt (externalGate (L.addr .genericIsrStub)) none s
  obtain ⟨e, he⟩ := handlerEvents_stub L body (s := entered) rfl
  have hstack : Holds s.esp ([s.eflags, s.cs.setWidth 32] ++ [s.eip]) entered :=
    holds_interrupt _ none s
  have hcalls : ∃ e', callsOf (env L body) genericIsrStub entered = [(.genericHandler, e')] ∧
      argument e' = s.eip := genericIsrStub_calls hstack (by simp)
  obtain ⟨e', he', harg⟩ := hcalls
  refine ⟨e, he, ?_⟩
  -- both lists are read off the same code
  have hentry : e = callEntry (env L body) .genericHandler (beforeCall L body entered) := by
    have hevents : handlerEvents L body entered = eventsOf (env L body) genericIsrStub entered := by
      unfold handlerEvents
      rw [show entered.eip = L.addr .genericIsrStub from rfl, L.symAt_addr]
      rfl
    rw [hevents] at he
    exact (StubEvent.call.inj (List.cons.inj he).1).2.symm
  have hentry' : e' = callEntry (env L body) .genericHandler (beforeCall L body entered) :=
    (Prod.mk.inj (List.cons.inj he').1).2.symm
  rw [hentry, ← hentry', harg]

section Follow

variable {H : Addr → Kern Unit} {α β : Type}

/-- Following the calls of a sequence follows those of its parts. -/
theorem follow_bind (p : Kern α) (f : α → Kern β) :
    follow H (p >>= f) = follow H p >>= fun a => follow H (f a) := by
  induction p with
  | ret a => rfl
  | cut => rfl
  | ask o k ih =>
    cases o with
    | invoke h =>
      refine Eq.trans ?_ (Prog.bind_bind _ _ _).symm
      exact congrArg (H h >>= ·) (funext fun _ => ih ())
    | _ => exact congrArg (Prog.ask _) (funext ih)

/-- **The code behind an installed gate is the trap**, with the calls through pointers
followed. -/
theorem codeOf_gate (H : Addr → Kern Unit) (s : Cpu) :
    codeOf L H (handlerEvents L body (interrupt (externalGate (L.addr .genericIsrStub)) none s)) =
      follow H (genericStub s.eip) := by
  obtain ⟨e, he, harg⟩ := handlerEvents_gate L body s
  rw [he, genericStub, follow_bind, ← harg]
  rfl

/-- Where the word at `handlers[EIP]` is `NULL` it does not matter what stands behind
pointers. -/
theorem run_codeOf_gate {ε : Type} (b : Bus ε) (H : Addr → Kern Unit) {s : Cpu} {w : World ε}
    (h : w.kernel.idt.handlerAt s.eip = 0) :
    (codeOf L H (handlerEvents L body
        (interrupt (externalGate (L.addr .genericIsrStub)) none s))).run (machine b) w =
      (genericStub s.eip).run (machine b) w := by
  obtain ⟨u, hreport, hu⟩ := run_reportRegisters b s.eip w
  have hfollowed : (follow H (reportRegisters s.eip)).run (machine b) w = (some (), u) := hreport
  have hnull : ¬ u.kernel.idt.handlerAt s.eip ≠ 0 := by
    rw [hu.kernel]
    exact not_not.2 h
  rw [codeOf_gate, genericStub, genericHandler_eq, Prog.bind_bind, follow_bind,
    Prog.run_bind_of_some _ hfollowed, Prog.run_bind_of_some _ hreport, Prog.bind_bind, follow_bind,
    Prog.run_bind_of_some _ (run_getKernel b u)]
  refine (Prog.run_bind_of_some _ (run_getKernel b u)).trans ?_
  rw [onlyIf, if_neg hnull]
  rfl

end Follow

/-! ### In-service registers -/

variable {ρ : Type} (rest : Bus ρ)

/-- No interrupt is in service on either chip. -/
structure Clear (s : State ρ) : Prop where
  master : s.master.isr = 0
  slave : s.slave.isr = 0

/-- The processor takes the interrupt of the line; those of the slave come through
line 2 of the master. -/
def deliver (line : Line) (s : State ρ) : State ρ :=
  if line.val < 8 then
    { s with master := { s.master with isr := s.master.isr ||| 1#8 <<< line.val } }
  else { s with
    master := { s.master with isr := s.master.isr ||| 1#8 <<< 2 }
    slave := { s.slave with isr := s.slave.isr ||| 1#8 <<< (line.val - 8) } }

/-- Ends of interrupts may have cleared bits, and nothing else has happened to the
in-service registers. -/
structure Lowered (s t : State ρ) : Prop where
  master : ∃ n, t.master.isr = acknowledged^[n] s.master.isr
  slave : ∃ n, t.slave.isr = acknowledged^[n] s.slave.isr

/-- Registers that stay the same have no new bit. -/
theorem lowered_of_eq {s t : State ρ} (hm : t.master.isr = s.master.isr)
    (hs : t.slave.isr = s.slave.isr) : Lowered s t :=
  ⟨⟨0, hm⟩, 0, hs⟩

theorem Lowered.refl (s : State ρ) : Lowered s s := lowered_of_eq rfl rfl

/-- Two steps that set no bit in service. -/
theorem Lowered.trans {s t u : State ρ} (h : Lowered s t) (h' : Lowered t u) : Lowered s u := by
  obtain ⟨⟨i, hi⟩, j, hj⟩ := h
  obtain ⟨⟨i', hi'⟩, j', hj'⟩ := h'
  refine ⟨⟨i' + i, ?_⟩, j' + j, ?_⟩
  · rw [hi', hi, Function.iterate_add_apply]
  · rw [hj', hj, Function.iterate_add_apply]

/-- A command lowers the in-service register of its chip. -/
theorem isr_command (d : Byte) (c : Chip) : ∃ n, (c.command d).isr = acknowledged^[n] c.isr := by
  unfold Chip.command
  split_ifs
  · exact ⟨0, rfl⟩
  · exact ⟨0, rfl⟩
  · exact ⟨0, rfl⟩
  · exact ⟨1, rfl⟩
  · exact ⟨0, rfl⟩

/-- A write sets no bit in service. -/
theorem lowered_outb (port : Word) (d : Byte) (s : State ρ) :
    Lowered s ((bus rest).outb port d s) := by
  simp only [bus]
  split_ifs
  · exact ⟨isr_command d s.master, 0, rfl⟩
  · exact lowered_of_eq rfl rfl
  · exact ⟨⟨0, rfl⟩, isr_command d s.slave⟩
  · exact lowered_of_eq rfl rfl
  · exact lowered_of_eq rfl rfl

/-- A read sets no bit in service. -/
theorem lowered_inb (port : Word) (s : State ρ) : Lowered s ((bus rest).inb port s).2 := by
  simp only [bus]
  split_ifs
  · exact .refl s
  · exact .refl s
  · exact .refl s
  · exact .refl s
  · exact lowered_of_eq rfl rfl

/-- No operation of the kernel sets a bit in service. -/
theorem lowered_step (o : Op) (w : World (State ρ)) :
    Lowered w.bus (machine (bus rest) o w).2.bus := by
  cases o with
  | readByte port => exact lowered_inb rest port w.bus
  | readWord port => exact lowered_of_eq rfl rfl
  | writeByte port d => exact lowered_outb rest port d w.bus
  | _ => exact .refl w.bus

/-- **Whatever the kernel's code does**, it can lower the in-service registers only. -/
theorem lowered_run {α : Type} {p : Kern α} {w t : World (State ρ)} {a : α}
    (h : p.run (machine (bus rest)) w = (some a, t)) : Lowered w.bus t.bus :=
  (Prog.sat_of_always (R := fun s t : World (State ρ) => Lowered s.bus t.bus)
    (fun s => .refl s.bus) (fun _ _ _ => Lowered.trans) (fun o s _ => lowered_step rest o s)
    (Prog.always_true p) w).run h

theorem iterate_acknowledged_zero (n : ℕ) : acknowledged^[n] 0 = 0 :=
  Function.iterate_fixed (by decide) n

/-- One end of interrupt clears a single bit. -/
theorem iterate_acknowledged_bit {k : ℕ} (hk : k < 8) (n : ℕ) :
    acknowledged^[n + 1] ((0 : Byte) ||| 1#8 <<< k) = 0 := by
  have hall : ∀ k < 8, acknowledged ((0 : Byte) ||| 1#8 <<< k) = 0 := by decide
  rw [Function.iterate_succ_apply, hall k hk, iterate_acknowledged_zero]

/-! ### Runs of interrupts -/

/-- A hardware interrupt: its line, and the processor when it is taken. -/
structure Irq where
  line : Line
  cpu : Cpu

/-- The machine when the processor has taken the interrupt. -/
def delivered (irq : Irq) (w : World (State ρ)) : World (State ρ) :=
  { w with bus := deliver irq.line w.bus }

/-- The vector that the chips deliver for the line. -/
def vectorOf (irq : Irq) (w : World (State ρ)) : Byte := w.bus.controller.vector irq.line

/-- What the code behind the gate of the interrupt calls and writes. -/
def irqEvents (irq : Irq) (w : World (State ρ)) : List StubEvent :=
  handlerEvents L body (interrupt (w.kernel.idt.gate (vectorOf irq w)) none irq.cpu)

variable (H : Addr → Kern Unit)

/-- From `w` to `t` the interrupt is taken and serviced. -/
def Serviced (irq : Irq) (w t : World (State ρ)) : Prop :=
  (codeOf L H (irqEvents L body irq w)).run (machine (bus rest)) (delivered irq w) = (some (), t)

/-- A handler is installed for the vector. -/
def Installed (t : Idt) (vector : Byte) : Prop :=
  ∃ cs t₀ h, t = runIdtCalls L cs t₀ ∧ lastInstalled cs vector = some h

/-- A run of interrupts that do not nest, for vectors with handlers: each with the
state before it and the state when its stub has returned. -/
inductive IrqRun : World (State ρ) → List (World (State ρ) × Irq × World (State ρ)) → Prop where
  | nil (w : World (State ρ)) : IrqRun w []
  | cons {w t : World (State ρ)} {irq : Irq} {run : List (World (State ρ) × Irq × World (State ρ))}
      (hinstalled : Installed L w.kernel.idt (vectorOf irq w))
      (hserviced : Serviced L body rest H irq w t) (hrun : IrqRun t run) :
      IrqRun w ((w, irq, t) :: run)

variable {L body rest H}

/-- The gate of a vector with a handler leads to the stub. -/
def Leads (L : Layout) (vector : Byte) (h : Option FnPtr) (t : Idt) : Prop :=
  h ≠ none → t.gate vector = externalGate (L.addr .genericIsrStub)

/-- A call of the two table functions keeps what leads to the handler in force. -/
theorem Leads.run {vector : Byte} {h : Option FnPtr} {t : Idt} (hl : Leads L vector h t)
    (c : IdtCall) : Leads L vector (c.handler vector h) (c.run L t) := by
  intro hne
  cases c with
  | install v' h' =>
    by_cases he : v' = vector
    · subst he
      exact gate_idtInstallIrqHandler L v' h' t
    · rw [IdtCall.handler, if_neg he] at hne
      exact (gate_idtInstallIrqHandler_ne L (Ne.symm he) h' t).trans (hl hne)
  | uninstall v' =>
    by_cases he : v' = vector
    · rw [IdtCall.handler, if_pos he] at hne
      exact absurd rfl hne
    · rw [IdtCall.handler, if_neg he] at hne
      exact hl hne

/-- Every sequence of calls keeps what leads to the handler in force. -/
theorem Leads.runIdtCalls {vector : Byte} (cs : List IdtCall) {h : Option FnPtr} {t : Idt}
    (hl : Leads L vector h t) :
    Leads L vector (cs.foldl (fun h c => c.handler vector h) h)
      (Interrupt.runIdtCalls L cs t) := by
  induction cs generalizing h t with
  | nil => exact hl
  | cons c cs ih => exact ih (hl.run c)

/-- An installed vector has the gate of the stub. -/
theorem Installed.gate {t : Idt} {vector : Byte} (h : Installed L t vector) :
    t.gate vector = externalGate (L.addr .genericIsrStub) := by
  obtain ⟨cs, t₀, f, rfl, hf⟩ := h
  have hstart : Leads L vector none t₀ := fun hne => absurd rfl hne
  refine hstart.runIdtCalls cs ?_
  rw [← lastInstalled, hf]
  exact Option.some_ne_none f

variable (body) in
/-- The code of an interrupt with a handler: `generic_handler`, and then one end of
interrupt to the master. -/
theorem irqEvents_installed {irq : Irq} {w : World (State ρ)}
    (h : Installed L w.kernel.idt (vectorOf irq w)) :
    ∃ e, irqEvents L body irq w = [.call .genericHandler e, .out 0x20 0x20] := by
  rw [irqEvents, h.gate]
  exact handlerEvents_stub L body rfl

/-- Once the handler has returned, one end of interrupt is enough for the master, and
the slave needs none for a line that is not its own. -/
theorem isr_deliver {line : Line} {s t : State ρ} (h : Clear s)
    (hl : Lowered (deliver line s) t) :
    acknowledged t.master.isr = 0 ∧ (line.val < 8 → t.slave.isr = 0) := by
  obtain ⟨⟨i, hi⟩, j, hj⟩ := hl
  rw [hi, ← Function.iterate_succ_apply' acknowledged, hj]
  unfold deliver
  by_cases hline : line.val < 8
  · rw [if_pos hline]
    refine ⟨?_, fun _ => ?_⟩
    · show acknowledged^[i + 1] (s.master.isr ||| 1#8 <<< line.val) = 0
      rw [h.master]
      exact iterate_acknowledged_bit hline i
    · show acknowledged^[j] s.slave.isr = 0
      rw [h.slave]
      exact iterate_acknowledged_zero j
  · rw [if_neg hline]
    refine ⟨?_, fun h8 => absurd h8 hline⟩
    show acknowledged^[i + 1] (s.master.isr ||| 1#8 <<< 2) = 0
    rw [h.master]
    exact iterate_acknowledged_bit (by decide) i

/-- **What `pic_send_eoi` would leave**: nothing in service. -/
theorem clear_picSendEoi {line : Line} {w : World (State ρ)} (h : Clear w.bus) :
    ∃ t, (picSendEoi (BitVec.ofNat 8 line.val)).run (machine (bus rest))
      { w with bus := deliver line w.bus } = (some (), t) ∧ Clear t.bus := by
  have hline : (BitVec.ofNat 8 line.val).toNat = line.val := by
    rw [BitVec.toNat_ofNat]
    omega
  obtain ⟨hmaster, hslave⟩ := isr_deliver h (Lowered.refl (deliver line w.bus))
  by_cases hlow : line.val < 8
  · have hirq : ¬ 8 ≤ (BitVec.ofNat 8 line.val).toNat := by omega
    rw [picSendEoi, onlyIf, if_neg hirq]
    exact ⟨_, rfl, hmaster, hslave hlow⟩
  · have hirq : 8 ≤ (BitVec.ofNat 8 line.val).toNat := by omega
    rw [picSendEoi, onlyIf, if_pos hirq]
    refine ⟨_, rfl, hmaster, ?_⟩
    show acknowledged (deliver line w.bus).slave.isr = 0
    rw [deliver, if_neg hlow]
    show acknowledged (w.bus.slave.isr ||| 1#8 <<< (line.val - 8)) = 0
    rw [h.slave]
    exact iterate_acknowledged_bit (by omega) 0

/-! ### Handlers that leave it to the stub -/

/-- The operation is no end of interrupt for the slave. -/
def SparesSlave : Op → Prop
  | .writeByte port d =>
    port = PIC_SLAVE_COMMAND → ¬ (d.getLsbD 4 = false ∧ d.getLsbD 3 = false ∧ d >>> 5 = 1)
  | _ => True

/-- An operation that spares the slave leaves its in-service register. -/
theorem slave_isr_step {o : Op} (ho : SparesSlave o) (w : World (State ρ)) :
    (machine (bus rest) o w).2.bus.slave.isr = w.bus.slave.isr := by
  cases o with
  | readByte port =>
    show ((bus rest).inb port w.bus).2.slave.isr = _
    simp only [bus]
    split_ifs <;> rfl
  | writeByte port d =>
    show ((bus rest).outb port d w.bus).slave.isr = _
    simp only [bus]
    split_ifs with h0 h1 h2 h3
    · rfl
    · rfl
    · have hspare := ho h2
      show (w.bus.slave.command d).isr = _
      unfold Chip.command
      split_ifs with h4 h5 h6 h7
      · rfl
      · rfl
      · rfl
      · exact absurd ⟨Bool.eq_false_of_not_eq_true h4, Bool.eq_false_of_not_eq_true h5, h7⟩ hspare
      · rfl
    · rfl
    · rfl
  | _ => rfl

/-- Code without an end of interrupt for the slave leaves its in-service register. -/
theorem slave_isr_run {α : Type} {p : Kern α} (hp : Prog.Always (S := io) SparesSlave p)
    {w t : World (State ρ)} {a : α} (h : p.run (machine (bus rest)) w = (some a, t)) :
    t.bus.slave.isr = w.bus.slave.isr :=
  (Prog.sat_of_always (R := fun s t : World (State ρ) => t.bus.slave.isr = s.bus.slave.isr)
    (fun _ => rfl) (fun _ _ _ h h' => h'.trans h) (fun _ s ho => slave_isr_step ho s) hp w).run h

/-- A call through a pointer does what the code behind it does. -/
theorem always_follow {J : Op → Prop} (hH : ∀ h, Prog.Always (S := io) J (H h)) {α : Type}
    {p : Kern α} (hp : Prog.Always (S := io) J p) : Prog.Always (S := io) J (follow H p) := by
  induction p with
  | ret a => trivial
  | cut => trivial
  | ask o k ih =>
    cases o with
    | invoke h => exact (hH h).bind fun _ => ih () (hp.2 ())
    | _ => exact ⟨hp.1, fun r => ih r (hp.2 r)⟩

/-- Following calls to code that never runs out of fuel gives such code. -/
theorem cutFree_follow (hH : ∀ h, CutFree (H h)) {α : Type} {p : Kern α} (hp : CutFree p) :
    CutFree (follow H p) := by
  induction p with
  | ret a => trivial
  | cut => exact hp
  | ask o k ih =>
    cases o with
    | invoke h => exact (hH h).bind fun _ => ih () (hp ())
    | _ => exact fun r => ih r (hp r)

/-- Reading a register of the controllers sends no end of interrupt. -/
theorem always_picGetIrqReg {ocw3 : Byte} (h : ocw3.getLsbD 3 = true) :
    Prog.Always (S := io) SparesSlave (picGetIrqReg ocw3) := by
  have hspare : ∀ port, SparesSlave (.writeByte port ocw3) := by
    intro port _ heoi
    exact absurd (h.symm.trans heoi.2.1) (by decide)
  exact ⟨hspare _, fun _ => ⟨hspare _, fun _ => ⟨trivial, fun _ => ⟨trivial, fun _ => trivial⟩⟩⟩⟩

/-- `generic_handler` sends no end of interrupt to the slave. -/
theorem always_genericHandler (v : Dword) :
    Prog.Always (S := io) SparesSlave (genericHandler v) := by
  refine (always_picGetIrqReg (by decide)).bind fun isr => ?_
  refine (always_picGetIrqReg (by decide)).bind fun irr => ?_
  refine ⟨trivial, fun _ => ⟨trivial, fun k => ?_⟩⟩
  show Prog.Always (S := io) SparesSlave (onlyIf (k.idt.handlerAt v ≠ 0) _)
  unfold onlyIf
  split_ifs
  · exact ⟨trivial, fun _ => ⟨trivial, fun _ => trivial⟩⟩
  · trivial

/-- `generic_handler` has no loop of unknown length. -/
theorem cutFree_genericHandler (v : Dword) : CutFree (genericHandler v) := by
  refine CutFree.bind (fun _ _ _ _ => trivial) fun isr => ?_
  refine CutFree.bind (fun _ _ _ _ => trivial) fun irr => ?_
  intro _ k
  exact CutFree.ite _ (fun _ _ => trivial) trivial

/-! ### Whole runs -/

/-- The stub of an interrupt with a handler: the state in which it comes to its end of
interrupt, and the one that this leaves. -/
theorem Serviced.reaches (hH : ∀ h, Prog.Always (S := io) SparesSlave (H h)) {irq : Irq}
    {w t : World (State ρ)} (h : Installed L w.kernel.idt (vectorOf irq w))
    (hs : Serviced L body rest H irq w t) :
    ∃ u : World (State ρ), Lowered (deliver irq.line w.bus) u.bus ∧
      t.bus.master.isr = acknowledged u.bus.master.isr ∧
      t.bus.slave.isr = u.bus.slave.isr ∧
      u.bus.slave.isr = (deliver irq.line w.bus).slave.isr := by
  obtain ⟨e, he⟩ := irqEvents_installed body h
  rw [Serviced, he] at hs
  obtain ⟨a, u, hcall, hout⟩ := (Prog.run_bind_eq_some _).1 hs
  have ht : u.afterOutb (bus rest) PIC_MASTER_COMMAND PIC_EOI = t :=
    congrArg Prod.snd hout
  refine ⟨u, lowered_run rest hcall, ?_, ?_, ?_⟩
  · rw [← ht]
    rfl
  · rw [← ht]
    rfl
  · exact slave_isr_run (always_follow hH (always_genericHandler _)) hcall

/-- **One interrupt**: with its stub both chips are clear if and only if the line is one
of the master. -/
theorem clear_iff (hH : ∀ h, Prog.Always (S := io) SparesSlave (H h)) {irq : Irq}
    {w t : World (State ρ)} (hw : Clear w.bus)
    (hinstalled : Installed L w.kernel.idt (vectorOf irq w))
    (hserviced : Serviced L body rest H irq w t) : Clear t.bus ↔ irq.line.val < 8 := by
  obtain ⟨u, hu, hmaster, hslave, hspared⟩ := hserviced.reaches hH hinstalled
  obtain ⟨hone, hnone⟩ := isr_deliver hw hu
  constructor
  · intro hclear
    by_contra hline
    -- the bit of a line of the slave is still set
    have hbit : ∀ k < 8, (0 : Byte) ||| 1#8 <<< k ≠ 0 := by decide
    have hdelivered : (deliver irq.line w.bus).slave.isr = 0 ||| 1#8 <<< (irq.line.val - 8) := by
      rw [deliver, if_neg hline, ← hw.slave]
    refine hbit (irq.line.val - 8) (by omega) ?_
    rw [← hdelivered, ← hspared, ← hslave, hclear.slave]
  · intro hline
    exact ⟨hmaster.trans hone, hslave.trans (hnone hline)⟩

/-- **Who acknowledges an interrupt of the slave.**  Nobody, when the handlers leave the
slave alone: in a run of interrupts that starts with none in service, none is in service
after any of the stubs if and only if every interrupt is on a line of the master. -/
theorem acknowledged_iff (hH : ∀ h, Prog.Always (S := io) SparesSlave (H h))
    {w : World (State ρ)} {run : List (World (State ρ) × Irq × World (State ρ))}
    (hw : Clear w.bus) (hrun : IrqRun L body rest H w run) :
    (∀ x ∈ run, Clear x.2.2.bus) ↔ ∀ x ∈ run, x.2.1.line.val < 8 := by
  induction hrun with
  | nil w =>
    exact ⟨fun _ x hx => absurd hx List.not_mem_nil, fun _ x hx => absurd hx List.not_mem_nil⟩
  | cons hinstalled hserviced hrun ih =>
    have hfirst := clear_iff hH hw hinstalled hserviced
    rw [List.forall_mem_cons, List.forall_mem_cons]
    constructor
    · intro h
      exact ⟨hfirst.1 h.1, (ih h.1).1 h.2⟩
    · intro h
      exact ⟨hfirst.2 h.1, (ih (hfirst.2 h.1)).2 h.2⟩

/-- Interrupts whose handlers return are serviced. -/
theorem exists_serviced (hcut : ∀ h, CutFree (H h)) {irq : Irq} {w : World (State ρ)}
    (hinstalled : Installed L w.kernel.idt (vectorOf irq w)) :
    ∃ t, Serviced L body rest H irq w t := by
  obtain ⟨e, he⟩ := irqEvents_installed body hinstalled
  have hreturns : CutFree (codeOf L H (irqEvents L body irq w)) := by
    rw [he]
    exact (cutFree_follow hcut (cutFree_genericHandler _)).bind fun _ _ => trivial
  obtain ⟨a, t, ht⟩ := hreturns.returns (m := machine (bus rest)) (delivered irq w)
  exact ⟨t, ht⟩

/-- The chips after `pic_init`, with nothing in service. -/
def afterPicInit : State Unit where
  master := ⟨.remapped 0x20 (.firmware 0xb8 0x08), 0, 0, false⟩
  slave := ⟨.remapped 0x28 (.firmware 0x8f 0x70), 0, 0, false⟩
  rest := ()

/-- The kernel with a handler for the vector. -/
def handledWorld (vector : Byte) : World (State Unit) :=
  .boot afterPicInit (runIdtCalls Layout.sample
    [.install vector (Layout.sample.ptr .ps2KbdIrqHandler)] emptyIdt) fun _ => 0

/-- The sample vector has its gate and its handler. -/
theorem installed_handledWorld {irq : Irq} {vector : Byte}
    (h : vectorOf irq (handledWorld vector) = vector) :
    Installed Layout.sample (handledWorld vector).kernel.idt
      (vectorOf irq (handledWorld vector)) := by
  refine ⟨[.install vector (Layout.sample.ptr .ps2KbdIrqHandler)], emptyIdt,
    Layout.sample.ptr .ps2KbdIrqHandler, rfl, ?_⟩
  rw [h]
  exact if_pos rfl

/-- `ps2_kbd_irq_handler()`, at any address. -/
def ps2KbdIrqHandler (_ : Addr) : Kern Unit := println "ps2_kbd: Keyboard interrupt received" []

/-- The keyboard's handler has no loop of unknown length. -/
theorem cutFree_ps2KbdIrqHandler (h : Addr) : CutFree (ps2KbdIrqHandler h) := fun _ => trivial

/-- The keyboard's handler sends no end of interrupt to the slave. -/
theorem always_ps2KbdIrqHandler (h : Addr) :
    Prog.Always (S := io) SparesSlave (ps2KbdIrqHandler h) := ⟨trivial, fun _ => trivial⟩

/-- The timer's line and the real-time clock's, taken at `0x1234`. -/
def timerIrq : Irq := ⟨0, cpuAt 0x1234⟩

def clockIrq : Irq := ⟨8, cpuAt 0x1234⟩

/-- The timer is on line 0: its interrupt is acknowledged. -/
theorem acknowledged_iff_timer :
    ∃ t, Serviced Layout.sample (fun _ => ret) Bus.silent ps2KbdIrqHandler timerIrq
        (handledWorld 0x20) t ∧
      ∀ x ∈ [(handledWorld 0x20, timerIrq, t)], Clear x.2.2.bus := by
  have hinstalled : Installed Layout.sample (handledWorld 0x20).kernel.idt
      (vectorOf timerIrq (handledWorld 0x20)) := installed_handledWorld (by decide)
  have hserviced : ∃ t, Serviced Layout.sample (fun _ => ret) Bus.silent ps2KbdIrqHandler timerIrq
      (handledWorld 0x20) t := exists_serviced cutFree_ps2KbdIrqHandler hinstalled
  obtain ⟨t, ht⟩ := hserviced
  refine ⟨t, ht, (acknowledged_iff always_ps2KbdIrqHandler ⟨rfl, rfl⟩
    (.cons hinstalled ht (.nil t))).2 fun x hx => ?_⟩
  rw [List.mem_singleton.1 hx]
  exact (by decide : timerIrq.line.val < 8)

/-- **The clock's interrupt stays in service.** -/
theorem not_acknowledged_clock :
    Clear (handledWorld 0x28).bus ∧ ∃ t,
      IrqRun Layout.sample (fun _ => ret) Bus.silent ps2KbdIrqHandler (handledWorld 0x28)
        [(handledWorld 0x28, clockIrq, t)] ∧
      ¬ ∀ x ∈ [(handledWorld 0x28, clockIrq, t)], Clear x.2.2.bus := by
  have hclear : Clear (handledWorld 0x28).bus := ⟨rfl, rfl⟩
  have hinstalled : Installed Layout.sample (handledWorld 0x28).kernel.idt
      (vectorOf clockIrq (handledWorld 0x28)) := installed_handledWorld (by decide)
  have hserviced : ∃ t, Serviced Layout.sample (fun _ => ret) Bus.silent ps2KbdIrqHandler clockIrq
      (handledWorld 0x28) t := exists_serviced cutFree_ps2KbdIrqHandler hinstalled
  obtain ⟨t, ht⟩ := hserviced
  refine ⟨hclear, t, .cons hinstalled ht (.nil t), fun hall => ?_⟩
  have hline : ¬ clockIrq.line.val < 8 := by decide
  exact hline ((clear_iff always_ps2KbdIrqHandler hclear hinstalled ht).1
    (hall _ (List.mem_singleton_self _)))

end Interrupt
end DrewOS
