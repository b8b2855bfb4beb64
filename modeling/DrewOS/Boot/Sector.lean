/-
# The boot sector

`src/boot/bootloader.asm` with the files that it includes: `util.asm`, `gdt.asm`,
`protected_mode.asm` and `util_pm.asm`.  The code behind each label stands here as
in the source, in the order of the text.

The code assumes that it is entered with `DS`, `ES` and `SS` zero (`Handover`); it
sets none of them before it is in protected mode.
-/

import DrewOS.Boot.Bios

namespace DrewOS
namespace Boot

open ByteMem X86 X86.Asm

/-! ### Data -/

/-- The named pieces of data. -/
inductive Data where
  | bootDrive | msgRealMode | msgProtMode | msgLoadKernel
  | errUnknown | diskErrorMsg | diskErrorMsgCtx | diskErrorMsgNsect
  | gdtStart | gdtDescriptor
  deriving DecidableEq, Repr

/-- The strings, without the `NUL` behind them. -/
def Data.text : Data → List Byte
  | .msgRealMode => ascii "Started"
  | .msgProtMode => ascii "Protected"
  | .msgLoadKernel => ascii "Loading kernel"
  | .errUnknown => ascii "Unknown digit"
  | .diskErrorMsg => ascii "Disk read error"
  | .diskErrorMsgCtx => ascii ": "
  | .diskErrorMsgNsect => ascii "Failed to read specified number of sectors"
  | .bootDrive | .gdtStart | .gdtDescriptor => []

/-- `gdt_null`. -/
def gdtNull : List Byte := [0x00, 0x00, 0x00, 0x00, 0x00, 0x00, 0x00, 0x00]

/-- `gdt_code`: base 0, limit `0xfffff`, granularity and 32-bit bits set. -/
def gdtCode : List Byte := [0xff, 0xff, 0x00, 0x00, 0x00, 0b10011010, 0b11001111, 0x00]

/-- `gdt_data`: the same, but for the type. -/
def gdtData : List Byte := [0xff, 0xff, 0x00, 0x00, 0x00, 0b10010010, 0b11001111, 0x00]

/-- `CODE_SEG`. -/
def CODE_SEG : Word := 0x08

/-- `DATA_SEG`. -/
def DATA_SEG : Word := 0x10

/-- The number of bytes of a piece of data. -/
def Data.size : Data → ℕ
  | .bootDrive => 1
  | .gdtStart => 24
  | .gdtDescriptor => 6
  | d => d.text.length + 1

/-! ### Code -/

/-- The labels of the code, in the order of the text. -/
inductive Label where
  | start
  | print | printStart | printEnd | printLf | println | clrscr
  | printHex | printHexLoopStart | unknownDigit | number | letter | printHexLoopEnd | printHexEnd
  | printlnHex
  | diskLoad | diskLoadSuccess | diskNsectError | diskError
  | switchToPm | initPm
  | printPm | printPmLoop | printPmDone
  | loadKernel | beginPm
  deriving DecidableEq, Repr

/-- The label that follows in the text. -/
def Label.next : Label → Label
  | .start => .print
  | .print => .printStart | .printStart => .printEnd | .printEnd => .printLf
  | .printLf => .println | .println => .clrscr | .clrscr => .printHex
  | .printHex => .printHexLoopStart | .printHexLoopStart => .unknownDigit
  | .unknownDigit => .number | .number => .letter | .letter => .printHexLoopEnd
  | .printHexLoopEnd => .printHexEnd | .printHexEnd => .printlnHex | .printlnHex => .diskLoad
  | .diskLoad => .diskLoadSuccess | .diskLoadSuccess => .diskNsectError
  | .diskNsectError => .diskError | .diskError => .switchToPm
  | .switchToPm => .initPm | .initPm => .printPm
  | .printPm => .printPmLoop | .printPmLoop => .printPmDone | .printPmDone => .loadKernel
  | .loadKernel => .beginPm | .beginPm => .beginPm

/-- The operand size that the `bits` directives select. -/
def Label.bits : Label → Width
  | .initPm | .printPm | .printPmLoop | .printPmDone | .beginPm => .dword
  | _ => .word

/-- `KERNEL_OFFSET`. -/
def KERNEL_OFFSET : Word := 0x1000

/-- `VIDEO_MEMORY`. -/
def VIDEO_MEMORY : Addr := 0xb8000

/-- `GREEN_ON_BLACK`. -/
def GREEN_ON_BLACK : Byte := 0x03

/-- The code behind a label. -/
def code : Label → List (Instr Label Data)
  | .start => [
      .mov (.mem (.data .bootDrive)) (.from (.low .edx)),  -- BIOS stores our boot drive in dl
      .mov (.r16 .ebp) (.imm 0x9000),                      -- set up the stack
      .mov (.r16 .esp) (.from (.r16 .ebp)),
      .call .clrscr,
      .mov (.r16 .ebx) (.offset .msgRealMode),
      .call .println,
      .call .loadKernel,
      .call .switchToPm,
      .jmpHere]
  | .print => [
      .pusha,
      .mov (.high .eax) (.imm 0x0e)]
  | .printStart => [
      .mov (.low .eax) (.from (.mem (.at .ebx))),
      .cmp (.low .eax) (.imm 0),
      .jcc .e .printEnd,
      .int 0x10,
      .inc (.r16 .ebx),
      .jmp .printStart]
  | .printEnd => [
      .popa,
      .ret]
  | .printLf => [
      .pusha,
      .mov (.high .eax) (.imm 0x0e),
      .mov (.low .eax) (.imm 0x0d),
      .int 0x10,
      .mov (.low .eax) (.imm 0x0a),
      .int 0x10,
      .popa,
      .ret]
  | .println => [
      .pusha,
      .call .print,
      .call .printLf,
      .popa,
      .ret]
  | .clrscr => [
      .pusha,
      .mov (.high .eax) (.imm 0x06),     -- scroll up function
      .mov (.low .eax) (.imm 0x00),      -- clear entire screen
      .mov (.high .ebx) (.imm 0x07),
      .mov (.r16 .ecx) (.imm 0x00),
      .mov (.high .edx) (.imm 24),
      .mov (.low .edx) (.imm 79),
      .int 0x10,
      .mov (.high .eax) (.imm 0x02),     -- set cursor position function
      .mov (.low .eax) (.imm 0x00),
      .mov (.high .ebx) (.imm 0x00),
      .mov (.low .ebx) (.imm 0x00),
      .mov (.high .edx) (.imm 0x00),
      .mov (.low .edx) (.imm 0x00),
      .int 0x10,
      .popa,
      .ret]
  | .printHex => [
      .pusha,
      .mov (.r16 .ecx) (.imm 0x03),      -- use cx as counter
      .mov (.high .eax) (.imm 0x0e),
      .mov (.low .eax) (.imm 0x30),
      .int 0x10,
      .mov (.low .eax) (.imm 0x78),
      .int 0x10]
  | .printHexLoopStart => [
      .mov (.r16 .ebx) (.from (.r16 .edx)),
      .shr (.r16 .ebx) 0x0c,
      .cmp (.r16 .ebx) (.imm 0xf),
      .jcc .g .unknownDigit,
      .cmp (.r16 .ebx) (.imm 0),
      .jcc .l .unknownDigit,
      .cmp (.low .ebx) (.imm 9),
      .jcc .g .letter,
      .jcc .le .number]
  | .unknownDigit => [
      .mov (.r16 .ebx) (.offset .errUnknown),
      .call .println,
      .jmp .printHexEnd]
  | .number => [
      .add (.low .ebx) (.imm 0x30),
      .jmp .printHexLoopEnd]
  | .letter => [
      .add (.low .ebx) (.imm 0x57),
      .jmp .printHexLoopEnd]
  | .printHexLoopEnd => [
      .mov (.low .eax) (.from (.low .ebx)),
      .int 0x10,
      .shl (.r16 .edx) 0x04,
      .cmp (.r16 .ecx) (.imm 0),
      .jcc .e .printHexEnd,
      .dec (.r16 .ecx),
      .jmp .printHexLoopStart]
  | .printHexEnd => [
      .popa,
      .ret]
  | .printlnHex => [
      .call .printHex,
      .call .printLf,
      .ret]
  | .diskLoad => [
      .push .edx,
      .mov (.high .eax) (.imm 0x02),               -- BIOS read sector function
      .mov (.low .eax) (.from (.high .edx)),       -- number of sectors to read
      .mov (.high .ecx) (.imm 0x00),               -- select cylinder 0
      .mov (.high .edx) (.imm 0x00),               -- select head 0
      .mov (.low .ecx) (.imm 0x02),                -- start reading from the second sector
      .int 0x13,
      .jcc .carry .diskError]
  | .diskLoadSuccess => [
      .pop .edx,
      .ret]
  | .diskNsectError => [
      .mov (.r16 .ebx) (.offset .diskErrorMsg),
      .call .print,
      .mov (.r16 .ebx) (.offset .diskErrorMsgCtx),
      .call .print,
      .mov (.r16 .ebx) (.offset .diskErrorMsgNsect),
      .call .println,
      .jmpHere]
  | .diskError => [
      .cmp (.low .eax) (.from (.high .edx)),       -- "the correct number of sectors"
      .jcc .ne .diskLoadSuccess,
      .mov (.r16 .ebx) (.offset .diskErrorMsg),
      .call .print,
      .mov (.r16 .ebx) (.offset .diskErrorMsgCtx),
      .call .print,
      .mov (.high .edx) (.from (.high .eax)),
      .mov (.low .edx) (.imm 0x00),
      .call .printlnHex,
      .jmpHere]
  | .switchToPm => [
      .cli,
      .lgdt .gdtDescriptor,
      .readCr0 .eax,
      .or (.r32 .eax) (.imm 0x1),
      .writeCr0 .eax,
      .jmpFar CODE_SEG .initPm]
  | .initPm => [
      .mov (.r16 .eax) (.imm DATA_SEG),
      .movSeg .ds .eax,
      .movSeg .ss .eax,
      .movSeg .es .eax,
      .movSeg .fs .eax,
      .movSeg .gs .eax,
      .mov (.r32 .ebp) (.imm 0x90000),
      .mov (.r32 .esp) (.from (.r32 .ebp)),
      .call .beginPm]
  | .printPm => [
      .pusha,
      .mov (.r32 .edx) (.imm VIDEO_MEMORY),
      .add (.r32 .edx) (.imm 640),
      .mov (.high .eax) (.imm GREEN_ON_BLACK)]
  | .printPmLoop => [
      .mov (.low .eax) (.from (.mem (.at .ebx))),
      .cmp (.low .eax) (.imm 0),
      .jcc .e .printPmDone,
      .mov (.mem (.at .edx)) (.from (.r16 .eax)),
      .add (.r32 .ebx) (.imm 1),
      .add (.r32 .edx) (.imm 2),
      .jmp .printPmLoop]
  | .printPmDone => [
      .popa,
      .ret]
  | .loadKernel => [
      .mov (.r16 .ebx) (.offset .msgLoadKernel),
      .call .println,
      .mov (.r16 .ebx) (.imm KERNEL_OFFSET),
      .mov (.high .edx) (.imm 32),                 -- number of sectors to read
      .mov (.low .edx) (.from (.mem (.data .bootDrive))),
      .call .diskLoad,
      .mov (.r16 .edx) (.from (.mem (.const (KERNEL_OFFSET.setWidth 32)))),
      .call .printlnHex,
      .ret]
  | .beginPm => [
      .mov (.r32 .ebx) (.offset .msgProtMode),
      .call .printPm,
      .callOut (KERNEL_OFFSET.setWidth 32),        -- jump to the address of our loaded kernel code
      .jmpHere]

/-- The program text of the boot sector. -/
def program : Program Label Data := ⟨code, Label.next, Label.bits⟩

/-! ### The sector in memory -/

/-- Where the assembler has put the sector: all data lies in its 512 bytes, and
`BOOT_DRIVE`, the only part that is written, apart from the rest. -/
structure SectorImage extends Image program where
  data_ge : ∀ d, 0x7c00 ≤ (data d).toNat
  data_le : ∀ d, (data d).toNat + d.size ≤ 0x7e00
  drive_apart : ∀ d, d ≠ .bootDrive → (data .bootDrive).toNat < (data d).toNat ∨
    (data d).toNat + d.size ≤ (data .bootDrive).toNat

/-- The bytes `bs` lie at `a`. -/
def HoldsBytes (m : Mem) (a : Addr) (bs : List Byte) : Prop :=
  ∀ i b, bs[i]? = some b → m (a + BitVec.ofNat 32 i) = b

/-- The bytes of a piece of data. -/
def SectorImage.bytes (I : SectorImage) : Data → List Byte
  | .bootDrive => []
  | .gdtStart => gdtNull ++ gdtCode ++ gdtData
  | .gdtDescriptor => [23, 0] ++ (List.range 4).map fun i =>
      BitVec.ofNat 8 ((I.data .gdtStart).toNat / 256 ^ i)
  | d => d.text ++ [0]

/-- The data of the sector is in memory. -/
def SectorImage.Loaded (I : SectorImage) (m : Mem) : Prop :=
  ∀ d, HoldsBytes m (I.data d) (I.bytes d)

variable {ε : Type}

/-- The state in which the BIOS enters the boot sector. -/
structure Handover (I : SectorImage) (s : State ε) : Prop where
  cs : s.Runs .word
  ds : s.segs.ds = .real 0 false
  es : s.segs.es = .real 0 false
  ss : s.segs.ss = .real 0 false
  realMode : s.cr0.getLsbD 0 = false
  loaded : I.Loaded s.mem
  requests : s.requests = []

end Boot
end DrewOS
