/-
# The interrupt descriptor table

`src/kernel/idt.c`.  Two tables describe what happens on an interrupt: the
processor reads the descriptors (`idt`), and `generic_handler` reads the
handlers (`handlers`), both indexed by the vector.  The functions of the file
that only change the tables are functions from tables to tables; `generic_handler`
and the `lidt` and `sti` of `idt_init` are in `DrewOS.Kernel.Interrupts`.
-/

import DrewOS.X86.Stack

namespace DrewOS

open ByteMem X86

/-- The kernel's code that is reached through an address. -/
inductive Sym where
  | genericIsrStub
  | genericHandler
  | exceptionHandler
  | isrStub (v : Fin 32)
  | ps2KbdIrqHandler
  deriving DecidableEq

/-- Where the linker has put the kernel's code: no two symbols at one address,
none at address 0. -/
structure Layout where
  addr : Sym → Addr
  symAt : Addr → Option Sym
  symAt_addr : ∀ f, symAt (addr f) = some f
  addr_ne_zero : ∀ f, addr f ≠ 0

/-- Addresses for a sample layout, the stubs of the exceptions at `0x5000 .. 0x501f`. -/
def sampleAddr : Sym → Addr
  | .genericIsrStub => 0x1000
  | .genericHandler => 0x2000
  | .exceptionHandler => 0x3000
  | .ps2KbdIrqHandler => 0x4000
  | .isrStub v => BitVec.ofNat 32 (0x5000 + v.val)

/-- A layout exists. -/
def Layout.sample : Layout where
  addr := sampleAddr
  symAt := fun a =>
    ([Sym.genericIsrStub, .genericHandler, .exceptionHandler, .ps2KbdIrqHandler] ++
      (List.finRange 32).map Sym.isrStub).find? fun f => sampleAddr f = a
  symAt_addr := by
    rintro (_ | _ | _ | v | _)
    · rfl
    · rfl
    · rfl
    · revert v
      decide +kernel
    · rfl
  addr_ne_zero := by
    rintro (_ | _ | _ | v | _)
    · decide
    · decide
    · decide
    · revert v
      decide
    · decide

/-- A pointer to a function: an address other than `NULL`. -/
structure FnPtr where
  addr : Addr
  ne_zero : addr ≠ 0

/-- A symbol as a function pointer. -/
def Layout.ptr (L : Layout) (f : Sym) : FnPtr := ⟨L.addr f, L.addr_ne_zero f⟩

/-- `idt_entry_t`. -/
structure IdtEntry where
  isrLow : Word
  kernelCs : Word
  reserved : Byte
  attributes : Byte
  isrHigh : Word

/-- The packed structure as the processor reads it. -/
def IdtEntry.bits (d : IdtEntry) : BitVec 64 :=
  d.isrHigh ++ d.attributes ++ d.reserved ++ d.kernelCs ++ d.isrLow

/-- The static tables of `idt.c`, and what lies in memory where an index past
the end of `handlers` reads. -/
structure Idt where
  idt : Byte → IdtEntry
  handlers : Byte → Addr
  pastHandlers : Dword → Addr

/-- The gate that the processor finds for a vector. -/
def Idt.gate (t : Idt) (vector : Byte) : Gate := Gate.ofBits (t.idt vector).bits

/-- `handlers[vector]`; the array has 256 entries and the index is not checked. -/
def Idt.handlerAt (t : Idt) (vector : Dword) : Addr :=
  if vector.toNat < 256 then t.handlers (vector.setWidth 8) else t.pastHandlers vector

/-- `IDT_DESCRIPTOR_EXTERNAL`. -/
def IDT_DESCRIPTOR_EXTERNAL : Byte := 0x8e

/-- `idt_set_descriptor(vector, isr, flags)`. -/
def idtSetDescriptor (vector : Byte) (isr : Addr) (flags : Byte) (t : Idt) : Idt :=
  { t with
    idt := Function.update t.idt vector
      { isrLow := (isr &&& 0xffff).setWidth 16
        kernelCs := 0x08
        reserved := 0
        attributes := flags
        isrHigh := (isr >>> 16).setWidth 16 } }

/-- The vectors whose gates `idt_init` takes from `isr_stub_table`. -/
def tableVectors : List (Fin 32) := [8, 10, 11, 12, 13, 14, 17]

/-- The code that `idt_init` installs for an exception. -/
def initialIsr (vector : Fin 32) : Sym :=
  if vector ∈ tableVectors then .isrStub vector else .genericHandler

/-- The loop of `idt_init`. -/
def idtInitGates (L : Layout) (t : Idt) : Idt :=
  (List.finRange 32).foldl
    (fun u v => idtSetDescriptor (BitVec.ofNat 8 v.val) (L.addr (initialIsr v)) 0x8e u) t

/-- `idt_install_irq_handler(vector, handler)`. -/
def idtInstallIrqHandler (L : Layout) (vector : Byte) (handler : FnPtr) (t : Idt) : Idt :=
  idtSetDescriptor vector (L.addr .genericIsrStub) IDT_DESCRIPTOR_EXTERNAL
    { t with handlers := Function.update t.handlers vector handler.addr }

/-- `idt_uninstall_irq_handler(vector)`. -/
def idtUninstallIrqHandler (vector : Byte) (t : Idt) : Idt :=
  { t with handlers := Function.update t.handlers vector 0 }

/-! ### Gates -/

/-- What the processor reads from a packed entry. -/
theorem gate_bits (d : IdtEntry) : Gate.ofBits d.bits =
    ⟨d.isrHigh ++ d.isrLow, d.kernelCs, d.attributes.getLsbD 7, d.attributes.extractLsb' 0 5⟩ := by
  have hhigh : d.bits.extractLsb' 48 16 = d.isrHigh := by
    unfold IdtEntry.bits
    rw [BitVec.extractLsb'_append_eq_of_le (by decide),
      BitVec.extractLsb'_append_eq_of_le (by decide),
      BitVec.extractLsb'_append_eq_of_le (by decide)]
    exact BitVec.extractLsb'_append_eq_left
  have hlow : d.bits.extractLsb' 0 16 = d.isrLow := BitVec.extractLsb'_append_eq_right
  have hcs : d.bits.extractLsb' 16 16 = d.kernelCs := by
    unfold IdtEntry.bits
    rw [BitVec.extractLsb'_append_eq_of_le (by decide)]
    exact BitVec.extractLsb'_append_eq_right
  have hpresent : d.bits.getLsbD 47 = d.attributes.getLsbD 7 := by
    unfold IdtEntry.bits
    rw [BitVec.getLsbD_append, if_neg (by decide), BitVec.getLsbD_append, if_neg (by decide),
      BitVec.getLsbD_append, if_neg (by decide), BitVec.getLsbD_append, if_pos (by decide)]
  have htype : d.bits.extractLsb' 40 5 = d.attributes.extractLsb' 0 5 := by
    unfold IdtEntry.bits
    rw [BitVec.extractLsb'_append_eq_of_le (by decide),
      BitVec.extractLsb'_append_eq_of_le (by decide),
      BitVec.extractLsb'_append_eq_of_le (by decide),
      BitVec.extractLsb'_append_eq_of_add_le (by decide)]
  rw [Gate.ofBits, hhigh, hlow, hcs, hpresent, htype]

/-- An address is its two halves. -/
theorem halves_append (a : Addr) :
    (a >>> 16).setWidth 16 ++ (a &&& 0xffff).setWidth 16 = a := by
  have hhigh : (a >>> 16).setWidth 16 = a.extractLsb' 16 16 := by
    ext i hi
    simp
  have hlow : (a &&& 0xffff).setWidth 16 = a.extractLsb' 0 16 := by
    have hmask : ∀ i < 16, (0xffff : Addr).getLsbD i = true := by decide
    ext i hi
    simp only [BitVec.getElem_setWidth, BitVec.getLsbD_and, hmask i hi,
      BitVec.getElem_extractLsb', Bool.and_true, Nat.zero_add]
  rw [hhigh, hlow]
  exact @BitVec.extractLsb'_append_extractLsb' 16 16 a

/-- **A descriptor is decoded to what it was built from.** -/
theorem gate_idtSetDescriptor (vector : Byte) (isr : Addr) (flags : Byte) (t : Idt) :
    (idtSetDescriptor vector isr flags t).gate vector =
      ⟨isr, 0x08, flags.getLsbD 7, flags.extractLsb' 0 5⟩ := by
  have h : (idtSetDescriptor vector isr flags t).idt vector =
      ⟨(isr &&& 0xffff).setWidth 16, 0x08, 0, flags, (isr >>> 16).setWidth 16⟩ :=
    Function.update_self ..
  unfold Idt.gate
  rw [h, gate_bits, halves_append]

/-- Setting a gate leaves the others. -/
theorem gate_idtSetDescriptor_ne {vector v : Byte} (h : v ≠ vector) (isr : Addr) (flags : Byte)
    (t : Idt) : (idtSetDescriptor vector isr flags t).gate v = t.gate v := by
  have hv : (idtSetDescriptor vector isr flags t).idt v = t.idt v := Function.update_of_ne h ..
  unfold Idt.gate
  rw [hv]

/-- Tables without a present gate. -/
def emptyIdt : Idt where
  idt := fun _ => ⟨0, 0, 0, 0, 0⟩
  handlers := fun _ => 0
  pastHandlers := fun _ => 0

/-- In the empty table no gate is present. -/
theorem emptyIdt_present (v : Byte) : (emptyIdt.gate v).present = false := by
  show (Gate.ofBits (IdtEntry.bits ⟨0, 0, 0, 0, 0⟩)).present = false
  decide

/-- The gate that `idt_set_descriptor` makes of the attribute byte `0x8e`. -/
def externalGate (isr : Addr) : Gate := ⟨isr, 0x08, true, Gate.interrupt32⟩

/-- An installed vector has the gate of the stub. -/
theorem gate_idtInstallIrqHandler (L : Layout) (vector : Byte) (handler : FnPtr) (t : Idt) :
    (idtInstallIrqHandler L vector handler t).gate vector =
      externalGate (L.addr .genericIsrStub) := by
  unfold idtInstallIrqHandler
  rw [gate_idtSetDescriptor]
  rfl

/-- Installing a handler leaves the gates of the other vectors. -/
theorem gate_idtInstallIrqHandler_ne (L : Layout) {vector v : Byte} (h : v ≠ vector)
    (handler : FnPtr) (t : Idt) :
    (idtInstallIrqHandler L vector handler t).gate v = t.gate v :=
  gate_idtSetDescriptor_ne h ..

/-- **The gates that `idt_init` leaves**: those of the exceptions are filled,
the others are as they were. -/
theorem gate_idtInitGates (L : Layout) (t : Idt) (v : Byte) :
    (idtInitGates L t).gate v =
      if h : v.toNat < 32 then externalGate (L.addr (initialIsr ⟨v.toNat, h⟩)) else t.gate v := by
  have hloop : ∀ (vs : List (Fin 32)) (u : Idt),
      (vs.foldl (fun u w => idtSetDescriptor (BitVec.ofNat 8 w.val) (L.addr (initialIsr w)) 0x8e u)
        u).gate v =
        if h : ∃ h : v.toNat < 32, (⟨v.toNat, h⟩ : Fin 32) ∈ vs then
          externalGate (L.addr (initialIsr ⟨v.toNat, h.1⟩)) else u.gate v := by
    intro vs
    induction vs with
    | nil =>
      intro u
      simp
    | cons w vs ih =>
      intro u
      rw [List.foldl_cons, ih]
      by_cases hw : ∃ h : v.toNat < 32, (⟨v.toNat, h⟩ : Fin 32) ∈ vs
      · obtain ⟨h, hm⟩ := hw
        rw [dif_pos ⟨h, hm⟩, dif_pos ⟨h, List.mem_cons_of_mem _ hm⟩]
      rw [dif_neg hw]
      by_cases hv : v = BitVec.ofNat 8 w.val
      · have hn : v.toNat = w.val := by
          rw [hv, BitVec.toNat_ofNat]
          omega
        have hmem : ∃ h : v.toNat < 32, (⟨v.toNat, h⟩ : Fin 32) ∈ w :: vs :=
          ⟨by omega, List.mem_cons.2 (.inl (Fin.ext hn))⟩
        have hfin : (⟨v.toNat, hmem.1⟩ : Fin 32) = w := Fin.ext hn
        rw [dif_pos hmem, hfin, hv, gate_idtSetDescriptor]
        rfl
      · rw [gate_idtSetDescriptor_ne hv, dif_neg]
        rintro ⟨h, hm⟩
        rcases List.mem_cons.1 hm with rfl | hm
        · exact hv (by simp)
        · exact hw ⟨h, hm⟩
  unfold idtInitGates
  rw [hloop]
  by_cases h : v.toNat < 32
  · rw [dif_pos h, dif_pos ⟨h, List.mem_finRange _⟩]
  · rw [dif_neg h, dif_neg fun hm => h hm.1]

end DrewOS
