/-
# A 32-bit x86 processor and its interrupt frames

Flat protected mode without privilege changes: the eight general registers,
`EIP`, `CS`, `EFLAGS` and memory.  The instructions are those of an interrupt
stub.  A stub is straight-line code, so it is a list of instructions that `exec`
runs to its end; what it calls is C code, given by its effect from entry to the
return (`Env.body`).

`interrupt` is what the processor does when it takes an interrupt through
a gate: push `EFLAGS`, `CS`, `EIP` and, for some exceptions, an error code, and
jump to the gate's offset.
-/

import DrewOS.Memory.Words

namespace X86

open ByteMem

/-- The general registers. -/
inductive Reg where
  | eax | ecx | edx | ebx | esp | ebp | esi | edi
  deriving DecidableEq, Repr

/-- The state of the processor and its memory. -/
structure Cpu where
  reg : Reg → Dword
  eip : Addr
  cs : Word
  eflags : Dword
  mem : Mem

namespace Cpu

/-- The stack pointer. -/
def esp (s : Cpu) : Addr := s.reg .esp

/-- Write a general register. -/
def setReg (s : Cpu) (r : Reg) (v : Dword) : Cpu :=
  { s with reg := Function.update s.reg r v }

/-- Push a doubleword. -/
def push (s : Cpu) (v : Dword) : Cpu :=
  { s with
    reg := Function.update s.reg .esp (s.esp - 4)
    mem := s.mem.store32 (s.esp - 4) v }

/-- The doubleword on top of the stack. -/
def top (s : Cpu) : Dword := s.mem.load32 s.esp

/-- Drop the doubleword on top of the stack. -/
def drop (s : Cpu) : Cpu := s.setReg .esp (s.esp + 4)

/-- Pop the top of the stack into a register. -/
def popReg (s : Cpu) (r : Reg) : Cpu := s.drop.setReg r s.top

/-- Jump. -/
def jump (s : Cpu) (a : Addr) : Cpu := { s with eip := a }

@[simp] theorem setReg_self (s : Cpu) (r : Reg) (v : Dword) : (s.setReg r v).reg r = v :=
  Function.update_self ..

@[simp] theorem setReg_ne (s : Cpu) {r q : Reg} (v : Dword) (h : q ≠ r) :
    (s.setReg r v).reg q = s.reg q :=
  Function.update_of_ne h ..

@[simp] theorem push_esp (s : Cpu) (v : Dword) : (s.push v).esp = s.esp - 4 := rfl

/-- `push` changes no register but `ESP`. -/
@[simp] theorem push_reg (s : Cpu) (v : Dword) {q : Reg} (h : q ≠ .esp) :
    (s.push v).reg q = s.reg q :=
  Function.update_of_ne h ..

@[simp] theorem drop_esp (s : Cpu) : s.drop.esp = s.esp + 4 := setReg_self ..

@[simp] theorem drop_mem (s : Cpu) : s.drop.mem = s.mem := rfl

/-- Taking the top off changes no register but `ESP`. -/
@[simp] theorem drop_reg (s : Cpu) {q : Reg} (h : q ≠ .esp) : s.drop.reg q = s.reg q :=
  setReg_ne _ _ h

@[simp] theorem popReg_esp (s : Cpu) {r : Reg} (h : r ≠ .esp) : (s.popReg r).esp = s.esp + 4 := by
  rw [popReg, esp, setReg_ne _ _ h.symm]
  exact drop_esp s

/-- The register popped has the word on top. -/
@[simp] theorem popReg_self (s : Cpu) (r : Reg) : (s.popReg r).reg r = s.top := setReg_self ..

/-- The other registers stay. -/
@[simp] theorem popReg_ne (s : Cpu) {r q : Reg} (h : q ≠ r) (hq : q ≠ .esp) :
    (s.popReg r).reg q = s.reg q := by
  rw [popReg, setReg_ne _ _ h, drop_reg _ hq]

@[simp] theorem jump_esp (s : Cpu) (a : Addr) : (s.jump a).esp = s.esp := rfl

@[simp] theorem jump_reg (s : Cpu) (a : Addr) : (s.jump a).reg = s.reg := rfl

@[simp] theorem jump_mem (s : Cpu) (a : Addr) : (s.jump a).mem = s.mem := rfl

/-- `PUSHA`. -/
def pusha (s : Cpu) : Cpu :=
  ((((((((s.push (s.reg .eax)).push (s.reg .ecx)).push (s.reg .edx)).push (s.reg .ebx)).push
    s.esp).push (s.reg .ebp)).push (s.reg .esi)).push (s.reg .edi))

/-- `POPA`: the saved `ESP` is skipped. -/
def popa (s : Cpu) : Cpu :=
  ((((((((s.popReg .edi).popReg .esi).popReg .ebp).drop).popReg .ebx).popReg .edx).popReg
    .ecx).popReg .eax)

/-- `IRET` to the same privilege level. -/
def iret (s : Cpu) : Cpu :=
  { s.drop.drop.drop with
    eip := s.top
    cs := s.drop.top.setWidth 16
    eflags := s.drop.drop.top }

end Cpu

/-! ### Flags -/

/-- `EFLAGS` after the addition `a + b`: `CF`, `PF`, `AF`, `ZF`, `SF` and `OF`. -/
def addFlags (a b f : Dword) : Dword :=
  let r := a + b
  let parity := (List.range 8).countP (fun i => r.getLsbD i)
  let f := putBit f 0 (decide (2 ^ 32 ≤ a.toNat + b.toNat))
  let f := putBit f 2 (parity % 2 == 0)
  let f := putBit f 4 (decide (16 ≤ a.toNat % 16 + b.toNat % 16))
  let f := putBit f 6 (r == 0)
  let f := putBit f 7 r.msb
  putBit f 11 (a.msb == b.msb && a.msb != r.msb)

/-! ### Instructions -/

/-- The instructions of an interrupt stub; `Sym` names the code that is called. -/
inductive Instr (Sym : Type) where
  | pusha
  | popa
  /-- `mov r, [esp + disp]` with a signed byte of displacement. -/
  | load (r : Reg) (disp : Byte)
  /-- `push r`. -/
  | push (r : Reg)
  /-- `add r, n` with a signed byte operand. -/
  | add (r : Reg) (n : Byte)
  /-- `mov al, b`. -/
  | movAl (b : Byte)
  /-- `out port, al`. -/
  | outAl (port : Byte)
  | call (f : Sym)
  | iret

/-- Bytes of the encoded instruction. -/
def Instr.size {Sym : Type} : Instr Sym → Dword
  | .pusha => 1
  | .popa => 1
  | .load _ _ => 4
  | .push _ => 1
  | .add _ _ => 3
  | .movAl _ => 2
  | .outAl _ => 2
  | .call _ => 5
  | .iret => 1

/-- Where the named code lies and what C code does from its entry to its return. -/
structure Env (Sym : Type) where
  addr : Sym → Addr
  body : Sym → Cpu → Cpu

variable {Sym : Type} (env : Env Sym)

/-- The state in which `call f` enters `f`. -/
def callEntry (f : Sym) (s : Cpu) : Cpu :=
  (s.push (s.eip + (Instr.call f).size)).jump (env.addr f)

/-- One instruction. -/
def step (i : Instr Sym) (s : Cpu) : Cpu :=
  let next := s.eip + i.size
  match i with
  | .pusha => s.pusha.jump next
  | .popa => s.popa.jump next
  | .load r disp => (s.setReg r (s.mem.load32 (s.esp + disp.signExtend 32))).jump next
  | .push r => (s.push (s.reg r)).jump next
  | .add r n => { s.setReg r (s.reg r + n.signExtend 32) with
      eip := next, eflags := addFlags (s.reg r) (n.signExtend 32) s.eflags }
  | .movAl b => (s.setReg .eax ((s.reg .eax).extractLsb' 8 24 ++ b)).jump next
  | .outAl _ => s.jump next
  | .call f => env.body f (callEntry env f s)
  | .iret => s.iret

/-- Straight-line code. -/
def exec (is : List (Instr Sym)) (s : Cpu) : Cpu := is.foldl (fun t i => step env i t) s

/-- The calls made by straight-line code, each with the state at its entry. -/
def callsOf : List (Instr Sym) → Cpu → List (Sym × Cpu)
  | [], _ => []
  | .call f :: is, s => (f, callEntry env f s) :: callsOf is (step env (.call f) s)
  | i :: is, s => callsOf is (step env i s)

/-- The first doubleword argument of a C function, in the state at its entry. -/
def argument (s : Cpu) : Dword := s.mem.load32 (s.esp + 4)

/-! ### Gates and interrupt entry -/

/-- A gate of the interrupt descriptor table, as the processor reads it from the
descriptor's 64 bits. -/
structure Gate where
  offset : Addr
  selector : Word
  present : Bool
  type : BitVec 5
  deriving DecidableEq

/-- Decode a descriptor. -/
def Gate.ofBits (d : BitVec 64) : Gate where
  offset := d.extractLsb' 48 16 ++ d.extractLsb' 0 16
  selector := d.extractLsb' 16 16
  present := d.getLsbD 47
  type := d.extractLsb' 40 5

/-- The type of a 32-bit interrupt gate. -/
def Gate.interrupt32 : BitVec 5 := 0b01110

/-- The flags cleared when an interrupt gate is taken: `TF`, `IF`, `NT`, `RF`, `VM`. -/
def maskOnEntry (f : Dword) : Dword :=
  [8, 9, 14, 16, 17].foldl (fun g i => putBit g i false) f

/-- **Interrupt entry** through the gate `g`: `EFLAGS`, `CS` and `EIP` are
pushed, then the error code when there is one. -/
def interrupt (g : Gate) (errorCode : Option Dword) (s : Cpu) : Cpu :=
  let t := ((s.push s.eflags).push (s.cs.setWidth 32)).push s.eip
  let t := match errorCode with
    | some e => t.push e
    | none => t
  { t with eip := g.offset, cs := g.selector, eflags := maskOnEntry s.eflags }

/-- The interrupted code goes on as if nothing had happened. -/
structure Resumed (s t : Cpu) : Prop where
  eip : t.eip = s.eip
  cs : t.cs = s.cs
  eflags : t.eflags = s.eflags
  reg : ∀ r, t.reg r = s.reg r

/-- `ESP` is as it was interrupted. -/
theorem Resumed.esp {s t : Cpu} (h : Resumed s t) : t.esp = s.esp := h.reg .esp

end X86
