/-
# The firmware that the boot sector calls

The boot sector uses two services of the BIOS: `int 0x10` for the screen and
`int 0x13` for the disk.  `Bios` is any firmware that keeps to what is documented of
them: which registers a call keeps, which memory it may change, and what a
successful read leaves in memory.  Everything else is left open, the answers of
the disk among it.
-/

import DrewOS.X86.Asm

namespace DrewOS
namespace Boot

open ByteMem X86 X86.Asm

/-- The number of the screen service. -/
def VIDEO : Byte := 0x10

/-- The number of the disk service. -/
def DISK : Byte := 0x13

/-- The linear address of the top of the stack. -/
def stackTop {ε : Type} (g : Segs) (q : Service ε) : Addr :=
  g.ss.base + q.regs.esp.word.setWidth 32

/-- The linear address of the buffer of a disk read, `ES:BX`. -/
def buffer {ε : Type} (g : Segs) (q : Service ε) : Addr :=
  g.es.base + q.regs.ebx.word.setWidth 32

/-- The memory that a call may change: the BIOS data area and what lies below it,
everything from 512 KiB on, 4 KiB of free stack, and the buffer of a disk read. -/
def BiosMemory {ε : Type} (n : Byte) (g : Segs) (q : Service ε) (a : Addr) : Prop :=
  a.toNat < 0x500 ∨ 0x80000 ≤ a.toNat ∨
    ((stackTop g q).toNat ≤ a.toNat + 0x1000 ∧ a.toNat < (stackTop g q).toNat) ∨
    (n = DISK ∧ (buffer g q).toNat ≤ a.toNat ∧
      a.toNat < (buffer g q).toNat + 512 * q.regs.eax.low.toNat)

/-- A BIOS, with the contents of each drive. -/
structure Bios (ε : Type) where
  call : Firmware ε
  disk : Byte → ℕ → Byte
  ebx : ∀ n g q, n = VIDEO ∨ n = DISK → (call n g q).regs.ebx.word = q.regs.ebx.word
  ecx : ∀ n g q, n = VIDEO ∨ n = DISK → (call n g q).regs.ecx.word = q.regs.ecx.word
  /-- Both halves: `DL` is the drive, and `DH` is no result of a read. -/
  edx : ∀ n g q, n = VIDEO ∨ n = DISK → (call n g q).regs.edx.word = q.regs.edx.word
  esp : ∀ n g q, n = VIDEO ∨ n = DISK → (call n g q).regs.esp.word = q.regs.esp.word
  /-- Writing a character keeps the number of the function. -/
  ah : ∀ g q, q.regs.eax.high = 0x0e → (call VIDEO g q).regs.eax.high = 0x0e
  mem : ∀ n g q a, n = VIDEO ∨ n = DISK → ¬ BiosMemory n g q a → (call n g q).mem a = q.mem a
  /-- A read of cylinder 0 and head 0 that succeeds. -/
  read : ∀ g q, q.regs.eax.high = 0x02 → q.regs.ecx.high = 0 → q.regs.edx.high = 0 →
    (call DISK g q).flags.cf = false → ∀ i < 512 * q.regs.eax.low.toNat,
      (call DISK g q).mem (buffer g q + BitVec.ofNat 32 i) =
        disk q.regs.edx.low (512 * (q.regs.ecx.low.toNat - 1) + i)

/-- The characters that requests have written to the screen, in order. -/
def written (rs : List Request) : List Byte :=
  rs.filterMap fun r =>
    if r.number = VIDEO ∧ r.ax.extractLsb' 8 8 = 0x0e then some (r.ax.extractLsb' 0 8) else none

@[simp] theorem written_append (rs rs' : List Request) :
    written (rs ++ rs') = written rs ++ written rs' :=
  List.filterMap_append

/-- The requests to the disk service, in order. -/
def reads (rs : List Request) : List Request := rs.filter fun r => r.number = DISK

@[simp] theorem reads_append (rs rs' : List Request) : reads (rs ++ rs') = reads rs ++ reads rs' :=
  List.filter_append ..

end Boot
end DrewOS
