/-
# Programs of the processor, with jumps

A program text is a list of instructions behind each label, and the label that
follows in the text; a place in it is a label and an index.  Return addresses are
numbers in memory, so `Image` says at which address the assembler has put each
instruction, and which instruction lies at an address.

`int n` asks the firmware.  A firmware call gets the registers, the segments and
memory, and gives registers, flags and memory back (`Firmware`); what is asked is
kept in `requests`, in order.
-/

import DrewOS.X86.Machine

namespace X86
namespace Asm

open ByteMem

/-! ### Instructions -/

/-- The address of an operand in memory, as an offset into the data segment. -/
inductive Address (D : Type) where
  /-- `[bx]`, `[ebx]`: a register, of the size of the code. -/
  | at (r : Reg)
  /-- The place of a named piece of data. -/
  | data (d : D)
  | const (a : Dword)

/-- Where an operand is read or written. -/
inductive Place (D : Type) : Width → Type where
  | low (r : Reg) : Place D .byte
  | high (r : Reg) : Place D .byte
  | r16 (r : Reg) : Place D .word
  | r32 (r : Reg) : Place D .dword
  | mem {w : Width} (a : Address D) : Place D w

/-- What an operand is read from. -/
inductive Source (D : Type) (w : Width) where
  | imm (v : Val w)
  | from (p : Place D w)
  /-- The address of a named piece of data. -/
  | offset (d : D)

/-- The instructions of a boot sector. -/
inductive Instr (L D : Type) where
  | mov {w : Width} (d : Place D w) (v : Source D w)
  | add {w : Width} (d : Place D w) (v : Source D w)
  | or {w : Width} (d : Place D w) (v : Source D w)
  | cmp {w : Width} (d : Place D w) (v : Source D w)
  | inc {w : Width} (d : Place D w)
  | dec {w : Width} (d : Place D w)
  | shl {w : Width} (d : Place D w) (n : ℕ)
  | shr {w : Width} (d : Place D w) (n : ℕ)
  | push (r : Reg)
  | pop (r : Reg)
  | pusha
  | popa
  | movSeg (r : SReg) (v : Reg)
  | readCr0 (r : Reg)
  | writeCr0 (r : Reg)
  | lgdt (d : D)
  | cli
  | int (n : Byte)
  | jmp (l : L)
  | jcc (c : Cond) (l : L)
  /-- `jmp $`. -/
  | jmpHere
  /-- `jmp selector:label`. -/
  | jmpFar (selector : Word) (l : L)
  | call (l : L)
  /-- `call` of an address outside the program. -/
  | callOut (a : Addr)
  | ret

/-- A place in the program text. -/
structure Pc (L : Type) where
  label : L
  index : ℕ
  deriving DecidableEq

/-- Where the processor goes on: in the program, or at an address outside of it. -/
inductive Location (L : Type) where
  | inside (pc : Pc L)
  | outside (a : Addr)

/-- A program text. -/
structure Program (L D : Type) where
  code : L → List (Instr L D)
  /-- The label that follows in the text. -/
  next : L → L
  /-- The operand size for which the code is assembled. -/
  bits : L → Width

/-- The place of the instruction behind the one at `pc`. -/
def Program.succ {L D : Type} (P : Program L D) (pc : Pc L) : Pc L :=
  if pc.index + 1 < (P.code pc.label).length then ⟨pc.label, pc.index + 1⟩
  else ⟨P.next pc.label, 0⟩

/-- Where the assembler has put a program and its data. -/
structure Image {L D : Type} (P : Program L D) where
  addr : Pc L → Addr
  pcAt : Addr → Option (Pc L)
  data : D → Addr
  pcAt_addr : ∀ pc, pc.index < (P.code pc.label).length → pcAt (addr pc) = some pc
  addr_lt : ∀ pc, pc.index < (P.code pc.label).length → (addr pc).toNat < 2 ^ 16

/-! ### The machine -/

/-- What a firmware call is asked: its number and the registers that hold arguments. -/
structure Request where
  number : Byte
  ax : Word
  bx : Word
  cx : Word
  dx : Word
  deriving DecidableEq

/-- What a firmware call may see and change; the segments it leaves alone. -/
structure Service (ε : Type) where
  regs : Regs
  flags : Flags
  mem : Mem
  env : ε

/-- The firmware: what a call does, from the instruction `int n` to the one behind it. -/
abbrev Firmware (ε : Type) : Type := Byte → Segs → Service ε → Service ε

/-- The state of the machine, but for the place where it executes. -/
structure State (ε : Type) where
  regs : Regs
  segs : Segs
  flags : Flags
  cr0 : Dword
  gdtr : Gdtr
  mem : Mem
  requests : List Request
  env : ε

/-- The machine in the middle of a run. -/
structure Config (L ε : Type) where
  state : State ε
  loc : Location L

variable {L D ε : Type}

namespace State

/-- The offset of the stack pointer moved by `d`. -/
def spPlus (s : State ε) (d : Dword) : Dword :=
  if s.segs.ss.big then s.regs.esp.dword + d
  else (s.regs.esp.word + d.setWidth 16).setWidth 32

def setSp (s : State ε) (off : Dword) : State ε :=
  { s with regs := { s.regs with
      esp := if s.segs.ss.big then s.regs.esp.setDword off
        else s.regs.esp.setWord (off.setWidth 16) } }

def setReg (s : State ε) (r : Reg) (v : Register) : State ε :=
  { s with regs := s.regs.set r v }

/-- Push a value. -/
def push (s : State ε) (w : Width) (v : Val w) : Option (State ε) :=
  let off := s.spPlus (-BitVec.ofNat 32 w.bytes)
  if s.segs.ss.writable then
    (s.segs.ss.linear off w.bytes).map fun a => { s.setSp off with mem := store s.mem w a v }
  else
    none

/-- Pop a value. -/
def pop (s : State ε) (w : Width) : Option (Val w × State ε) :=
  (s.segs.ss.linear (s.spPlus 0) w.bytes).map fun a =>
    (load s.mem w a, s.setSp (s.spPlus (BitVec.ofNat 32 w.bytes)))

/-- Push values, one after the other. -/
def pushAll (w : Width) : List (Val w) → State ε → Option (State ε)
  | [], s => some s
  | v :: vs, s => (s.push w v).bind (pushAll w vs)

/-- Pop registers; what lies there for `ESP` is skipped. -/
def popAll (w : Width) : List Reg → State ε → Option (State ε)
  | [], s => some s
  | r :: rs, s =>
    (s.pop w).bind fun (v, t) =>
      popAll w rs (if r = .esp then t else t.setReg r ((t.regs.get r).write w v))

/-- Load a segment register: from the table in protected mode, the address itself in
real mode. -/
def loadSegment (s : State ε) (r : SReg) (selector : Word) : Option (State ε) :=
  if s.cr0.getLsbD 0 then
    ((s.gdtr.lookup s.mem selector).bind fun d => d.load r selector).map fun g =>
      { s with segs := s.segs.set r g }
  else
    some { s with segs := s.segs.set r (.real selector (r = .cs)) }

/-- The processor is set to code of the given size. -/
def Runs (s : State ε) (bits : Width) : Prop :=
  s.segs.cs.code = true ∧ s.segs.cs.big = (bits == .dword)

instance (s : State ε) (bits : Width) : Decidable (s.Runs bits) :=
  inferInstanceAs (Decidable (_ ∧ _))

end State

/-- The registers in the order of `PUSHA`. -/
def allRegs : List Reg := [.eax, .ecx, .edx, .ebx, .esp, .ebp, .esi, .edi]

section Exec

variable {P : Program L D} (I : Image P)

/-- The offset that an address in memory stands for, in code of the given size. -/
def Address.offset (bits : Width) (s : State ε) : Address D → Dword
  | .at r => if bits = .word then (s.regs.get r).word.setWidth 32 else (s.regs.get r).dword
  | .data d => I.data d
  | .const a => a

/-- Read an operand. -/
def Place.read (bits : Width) (s : State ε) : {w : Width} → Place D w → Option (Val w)
  | _, .low r => some (s.regs.get r).low
  | _, .high r => some (s.regs.get r).high
  | _, .r16 r => some (s.regs.get r).word
  | _, .r32 r => some (s.regs.get r).dword
  | w, .mem a => (s.segs.ds.linear (a.offset I bits s) w.bytes).map (load s.mem w)

/-- Write an operand. -/
def Place.write (bits : Width) (s : State ε) :
    {w : Width} → Place D w → Val w → Option (State ε)
  | _, .low r, v => some (s.setReg r { s.regs.get r with low := v })
  | _, .high r, v => some (s.setReg r { s.regs.get r with high := v })
  | _, .r16 r, v => some (s.setReg r ((s.regs.get r).setWord v))
  | _, .r32 r, v => some (s.setReg r ((s.regs.get r).setDword v))
  | w, .mem a, v =>
    if s.segs.ds.writable then
      (s.segs.ds.linear (a.offset I bits s) w.bytes).map fun b =>
        { s with mem := store s.mem w b v }
    else
      none

/-- The value of a source operand. -/
def Source.read (bits : Width) (s : State ε) {w : Width} : Source D w → Option (Val w)
  | .imm v => some v
  | .from p => p.read I bits s
  | .offset d => some ((I.data d).setWidth w.bits)

/-- Compute a new value of an operand. -/
def update (bits : Width) (s : State ε) {w : Width} (d : Place D w) (f : Val w → Val w)
    (flags : Val w → Flags) : Option (State ε) :=
  (d.read I bits s).bind fun a => d.write I bits { s with flags := flags a } (f a)

/-- The instructions behind which the program goes on with the next one.  `none` for
the others, and where the processor would raise an exception. -/
def effect (F : Firmware ε) (bits : Width) (i : Instr L D) (s : State ε) : Option (State ε) :=
  match i with
  | .mov d v => (v.read I bits s).bind (d.write I bits s)
  | .add d v => (v.read I bits s).bind fun b =>
      update I bits s d (· + b) fun a => s.flags.ofAdd a b
  | .or d v => (v.read I bits s).bind fun b =>
      update I bits s d (· ||| b) fun a => s.flags.ofLogic (a ||| b)
  | .cmp d v => (v.read I bits s).bind fun b =>
      (d.read I bits s).map fun a => { s with flags := s.flags.ofSub a b }
  | .inc d => update I bits s d (· + 1) fun a => { s.flags.ofAdd a 1 with cf := s.flags.cf }
  | .dec d => update I bits s d (· - 1) fun a => { s.flags.ofSub a 1 with cf := s.flags.cf }
  | .shl d n => update I bits s d (· <<< n) fun a =>
      s.flags.ofShift (a.getMsbD (n - 1)) (a <<< n)
  | .shr d n => update I bits s d (· >>> n) fun a =>
      s.flags.ofShift (a.getLsbD (n - 1)) (a >>> n)
  | .push r => s.push bits ((s.regs.get r).read bits)
  | .pop r => (s.pop bits).map fun (v, t) => t.setReg r ((t.regs.get r).write bits v)
  | .pusha => s.pushAll bits (allRegs.map fun r => (s.regs.get r).read bits)
  | .popa => s.popAll bits allRegs.reverse
  | .movSeg r v => s.loadSegment r (s.regs.get v).word
  | .readCr0 r => some (s.setReg r ((s.regs.get r).setDword s.cr0))
  | .writeCr0 r => some { s with cr0 := (s.regs.get r).dword }
  | .lgdt d =>
    -- with operands of 16 bits, 24 bits of the base are loaded
    (s.segs.ds.linear (I.data d) 6).map fun a =>
      let base : Addr := load s.mem .dword (a + 2)
      { s with gdtr := ⟨load s.mem .word a, if bits = .word then base &&& 0x00ffffff else base⟩ }
  | .cli => some { s with flags := { s.flags with ifl := false } }
  | .int n =>
    -- there is no interrupt descriptor table in protected mode
    if s.cr0.getLsbD 0 then none
    else
      let t := F n s.segs ⟨s.regs, s.flags, s.mem, s.env⟩
      some { s with
        regs := t.regs
        flags := { t.flags with ifl := s.flags.ifl }
        mem := t.mem
        env := t.env
        requests := s.requests ++
          [⟨n, s.regs.eax.word, s.regs.ebx.word, s.regs.ecx.word, s.regs.edx.word⟩] }
  | .jmp _ | .jcc _ _ | .jmpHere | .jmpFar _ _ | .call _ | .callOut _ | .ret => none

/-- Push the address of the instruction behind the one at `pc`. -/
def pushReturn (pc : Pc L) (s : State ε) : Option (State ε) :=
  s.push (P.bits pc.label) ((I.addr (P.succ pc)).setWidth (P.bits pc.label).bits)

/-- The instruction `i` at `pc`. -/
def exec (F : Firmware ε) (pc : Pc L) (i : Instr L D) (s : State ε) : Option (Config L ε) :=
  match i with
  | .jmp l => some ⟨s, .inside ⟨l, 0⟩⟩
  | .jcc c l => some ⟨s, .inside (if c.holds s.flags then ⟨l, 0⟩ else P.succ pc)⟩
  | .jmpHere => some ⟨s, .inside pc⟩
  | .jmpFar selector l => (s.loadSegment .cs selector).map fun t => ⟨t, .inside ⟨l, 0⟩⟩
  | .call l => (pushReturn I pc s).map fun t => ⟨t, .inside ⟨l, 0⟩⟩
  | .callOut a => (pushReturn I pc s).map fun t => ⟨t, .outside a⟩
  | .ret => (s.pop (P.bits pc.label)).bind fun (v, t) =>
      (I.pcAt (v.setWidth 32)).map fun back => ⟨t, .inside back⟩
  | i => (effect I F (P.bits pc.label) i s).map fun t => ⟨t, .inside (P.succ pc)⟩

/-- One step.  Code is executed only by a processor that is set to its size. -/
def step (F : Firmware ε) (c : Config L ε) : Option (Config L ε) :=
  match c.loc with
  | .outside _ => none
  | .inside pc =>
    if c.state.Runs (P.bits pc.label) then
      (P.code pc.label)[pc.index]?.bind fun i => exec I F pc i c.state
    else
      none

end Exec

end Asm
end X86
