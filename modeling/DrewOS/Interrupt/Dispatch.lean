/-
# Which handler an interrupt reaches

The vector of an interrupt is known to the processor only; it pushes `EFLAGS`,
`CS` and `EIP`, and no vector.  `generic_isr_stub` "retrieves the interrupt
vector from the stack" with `mov eax, [esp + 32]` after `pusha`, which is the
word pushed last before the eight registers: the interrupted `EIP`.  So
`generic_handler` is called with the address of the interrupted instruction
(`argument_handlerCalls`), and the right handler is reached exactly when that
address happens to be the vector (`dispatched_iff`).
-/

import DrewOS.Interrupt.Stubs

namespace DrewOS
namespace Interrupt

open ByteMem Effect X86

/-! ### Histories of the tables -/

/-- A call that changes the tables. -/
inductive IdtCall where
  | install (vector : Byte) (handler : FnPtr)
  | uninstall (vector : Byte)

/-- The effect of a call on the tables. -/
def IdtCall.run (L : Layout) : IdtCall → Idt → Idt
  | .install v h, t => idtInstallIrqHandler L v h t
  | .uninstall v, t => idtUninstallIrqHandler v t

/-- The tables after a sequence of calls. -/
def runIdtCalls (L : Layout) (cs : List IdtCall) (t : Idt) : Idt :=
  cs.foldl (fun u c => c.run L u) t

/-- The handler in force for `v` after `c`, when it was `h` before. -/
def IdtCall.handler (v : Byte) (h : Option FnPtr) : IdtCall → Option FnPtr
  | .install v' h' => if v' = v then some h' else h
  | .uninstall v' => if v' = v then none else h

/-- The handler last installed for `v`, `none` if it was uninstalled since. -/
def lastInstalled (cs : List IdtCall) (v : Byte) : Option FnPtr :=
  cs.foldl (fun h c => c.handler v h) none

/-- The tables agree on `v`: if its gate is present, the gate leads to the stub
and the handler is the one in force. -/
def Agrees (L : Layout) (v : Byte) (h : Option FnPtr) (t : Idt) : Prop :=
  (t.gate v).present = true →
    t.gate v = externalGate (L.addr .genericIsrStub) ∧ t.handlers v = (h.map FnPtr.addr).getD 0

/-- **One call** keeps the tables in agreement. -/
theorem Agrees.run {L : Layout} {v : Byte} {h : Option FnPtr} {t : Idt} (ha : Agrees L v h t)
    (c : IdtCall) : Agrees L v (c.handler v h) (c.run L t) := by
  intro hp
  cases c with
  | install v' h' =>
    by_cases he : v' = v
    · subst he
      refine ⟨gate_idtInstallIrqHandler L v' h' t, ?_⟩
      rw [IdtCall.handler, if_pos rfl]
      exact Function.update_self ..
    · have hg : (IdtCall.run L (.install v' h') t).gate v = t.gate v :=
        gate_idtInstallIrqHandler_ne L (Ne.symm he) h' t
      rw [hg] at hp ⊢
      rw [IdtCall.handler, if_neg he]
      exact ⟨(ha hp).1, (Function.update_of_ne (Ne.symm he) ..).trans (ha hp).2⟩
  | uninstall v' =>
    refine ⟨(ha hp).1, ?_⟩
    by_cases he : v' = v
    · subst he
      rw [IdtCall.handler, if_pos rfl]
      exact Function.update_self ..
    · rw [IdtCall.handler, if_neg he]
      exact (Function.update_of_ne (Ne.symm he) ..).trans (ha hp).2

/-- **The run lemma.** -/
theorem Agrees.runIdtCalls {L : Layout} {v : Byte} (cs : List IdtCall) {h : Option FnPtr} {t : Idt}
    (ha : Agrees L v h t) :
    Agrees L v (cs.foldl (fun h c => c.handler v h) h) (Interrupt.runIdtCalls L cs t) := by
  induction cs generalizing h t with
  | nil => exact ha
  | cons c cs ih => exact ih (ha.run c)

/-- After `idt_init` only the gates of the exceptions are filled. -/
theorem agrees_idtInit (L : Layout) {t : Idt} {v : Byte} (h0 : (t.gate v).present = false)
    (hv : 32 ≤ v.toNat) : Agrees L v none (idtInitGates L t) := by
  intro hp
  rw [gate_idtInitGates, dif_neg (Nat.not_lt.2 hv), h0] at hp
  exact absurd hp (by decide)

/-! ### Taking an interrupt -/

/-- **The stub passes the interrupted `EIP`** as the vector. -/
theorem argument_handlerCalls (L : Layout) (body : Sym → Cpu → Cpu) (s : Cpu) :
    ∃ e, handlerCalls L body (interrupt (externalGate (L.addr .genericIsrStub)) none s) =
      [(.genericHandler, e)] ∧ argument e = s.eip := by
  have h : Holds s.esp ([s.eflags, s.cs.setWidth 32] ++ [s.eip])
      (interrupt (externalGate (L.addr .genericIsrStub)) none s) := holds_interrupt _ none s
  rw [handlerCalls_stub L body rfl]
  exact genericIsrStub_calls h (by simp)

variable {ε : Type}

/-- What an interrupt on vector `v` should do in state `s` of the processor and
`w` of the kernel: one call of `generic_handler`, with the vector as argument,
which invokes the handler `h` in force, once, and nothing when there is none. -/
def Dispatched (b : Bus ε) (L : Layout) (body : Sym → Cpu → Cpu) (w : World ε) (v : Byte)
    (h : Option FnPtr) (s : Cpu) : Prop :=
  ∃ e, handlerCalls L body (interrupt (w.kernel.idt.gate v) none s) = [(.genericHandler, e)] ∧
    argument e = v.setWidth 32 ∧ (argument e).toNat < 256 ∧
      invoked ((genericHandler (argument e)).run (machine b) w).2.log =
        invoked w.log ++ (h.map FnPtr.addr).toList

/-- The handler found under the right vector is the one in force. -/
theorem invoked_of_agrees (b : Bus ε) {w : World ε} {v : Byte} {h : Option FnPtr}
    (ha : w.kernel.idt.handlers v = (h.map FnPtr.addr).getD 0) :
    invoked ((genericHandler (v.setWidth 32)).run (machine b) w).2.log =
      invoked w.log ++ (h.map FnPtr.addr).toList := by
  have hlt : (v.setWidth 32).toNat < 256 := by
    have := v.isLt
    rw [BitVec.toNat_setWidth]
    omega
  have hback : (v.setWidth 32).setWidth 8 = v := by
    apply BitVec.eq_of_toNat_eq
    have := v.isLt
    simp only [BitVec.toNat_setWidth]
    omega
  rw [invoked_genericHandler, Idt.handlerAt, if_pos hlt, hback, ha]
  rcases h with _ | h
  · rfl
  · show _ ++ (if h.addr ≠ 0 then [h.addr] else []) = _
    rw [if_pos h.ne_zero]
    rfl

/-- The gate of an IRQ vector that is present leads to the stub. -/
theorem gate_of_present {L : Layout} {t : Idt} (h0 : ∀ v, 32 ≤ v.toNat → (t.gate v).present = false)
    (cs : List IdtCall) {v : Byte} (hv : 32 ≤ v.toNat)
    (hp : ((runIdtCalls L cs (idtInitGates L t)).gate v).present = true) :
    (runIdtCalls L cs (idtInitGates L t)).gate v = externalGate (L.addr .genericIsrStub) ∧
      (runIdtCalls L cs (idtInitGates L t)).handlers v =
        ((lastInstalled cs v).map FnPtr.addr).getD 0 :=
  (agrees_idtInit L (h0 v hv) hv).runIdtCalls cs hp

/-- **Interrupt dispatch.**  For every history of installs and uninstalls after
`idt_init`, every IRQ vector whose gate is present and every interrupted state,
the interrupt reaches the handler last installed, with the vector as argument,
if and only if it was taken at the address that equals the vector. -/
theorem dispatched_iff (b : Bus ε) (L : Layout) (body : Sym → Cpu → Cpu) (t : Idt)
    (h0 : ∀ v, 32 ≤ v.toNat → (t.gate v).present = false) (cs : List IdtCall) (v : Byte)
    (hv : 32 ≤ v.toNat) (hp : ((runIdtCalls L cs (idtInitGates L t)).gate v).present = true)
    (w : World ε) (hw : w.kernel.idt = runIdtCalls L cs (idtInitGates L t)) (s : Cpu) :
    Dispatched b L body w v (lastInstalled cs v) s ↔ s.eip = v.setWidth 32 := by
  obtain ⟨hgate, hhandler⟩ := gate_of_present h0 cs hv hp
  obtain ⟨e, hcalls, harg⟩ := argument_handlerCalls L body s
  rw [Dispatched, hw, hgate, hcalls]
  constructor
  · rintro ⟨e', he', hv', -⟩
    obtain rfl : e = e' := congrArg Prod.snd (List.singleton_inj.1 he')
    exact harg.symm.trans hv'
  · intro heip
    have harg' := harg.trans heip
    refine ⟨e, rfl, harg', ?_, ?_⟩
    · rw [harg']
      have := v.isLt
      rw [BitVec.toNat_setWidth]
      omega
    · rw [harg']
      exact invoked_of_agrees b (hw ▸ hhandler)

/-! ### The keyboard's vector -/

/-- The keyboard driver's handler, installed for vector `0x21`. -/
def kbdCalls : List IdtCall := [.install 0x21 (Layout.sample.ptr .ps2KbdIrqHandler)]

/-- The kernel with the keyboard's handler installed. -/
def kbdWorld : World Unit where
  bus := ()
  kernel := .boot (runIdtCalls Layout.sample kbdCalls (idtInitGates Layout.sample emptyIdt))
  iflag := true
  mem := fun _ => 0
  log := []

/-- A processor about to execute the instruction at `eip`. -/
def cpuAt (eip : Addr) : Cpu where
  reg := fun _ => 0x8000
  eip := eip
  cs := 0x08
  eflags := 0x202
  mem := fun _ => 0

/-- The keyboard's vector has a gate. -/
theorem kbd_gate_present :
    ((runIdtCalls Layout.sample kbdCalls (idtInitGates Layout.sample emptyIdt)).gate
      0x21).present = true :=
  congrArg Gate.present (gate_idtInstallIrqHandler Layout.sample 0x21
    (Layout.sample.ptr .ps2KbdIrqHandler) (idtInitGates Layout.sample emptyIdt))

/-- At `EIP = 0x21` the keyboard's interrupt comes to its handler. -/
theorem dispatched_iff_kbd :
    Dispatched Bus.silent Layout.sample (fun _ s => s) kbdWorld 0x21
      (lastInstalled kbdCalls 0x21) (cpuAt 0x21) ↔ (cpuAt 0x21).eip = 0x21 :=
  dispatched_iff Bus.silent Layout.sample (fun _ s => s) emptyIdt (fun v _ => emptyIdt_present v)
    kbdCalls 0x21
    (by decide) kbd_gate_present kbdWorld rfl (cpuAt 0x21)

/-- **The keyboard's interrupt does not reach its handler** when it interrupts
the instruction at `0x1234`: `generic_handler` is called with `0x1234`. -/
theorem kbd_not_dispatched :
    ¬ Dispatched Bus.silent Layout.sample (fun _ s => s) kbdWorld 0x21
      (lastInstalled kbdCalls 0x21) (cpuAt 0x1234) := by
  rintro ⟨e, hcalls, hv, -⟩
  have hgate : kbdWorld.kernel.idt.gate 0x21 =
      externalGate (Layout.sample.addr .genericIsrStub) :=
    gate_idtInstallIrqHandler Layout.sample 0x21 (Layout.sample.ptr .ps2KbdIrqHandler)
      (idtInitGates Layout.sample emptyIdt)
  obtain ⟨e', hcalls', harg⟩ := argument_handlerCalls Layout.sample (fun _ s => s) (cpuAt 0x1234)
  rw [hgate, hcalls'] at hcalls
  obtain rfl : e' = e := congrArg Prod.snd (List.singleton_inj.1 hcalls)
  rw [harg] at hv
  exact absurd hv (by decide)

end Interrupt
end DrewOS
