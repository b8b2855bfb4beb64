/-
# The driver of the interrupt controllers

`src/kernel/pic.c`: two cascaded 8259A chips, the master at ports `0x20`/`0x21`
and the slave at `0xa0`/`0xa1`.
-/

import DrewOS.Kernel.Machine

namespace DrewOS

open ByteMem

def PIC_MASTER_COMMAND : Word := 0x0020

def PIC_MASTER_DATA : Word := 0x0021

def PIC_SLAVE_COMMAND : Word := 0x00a0

def PIC_SLAVE_DATA : Word := 0x00a1

/-- End of interrupt. -/
def PIC_EOI : Byte := 0x20

/-- `ICW1_INIT | ICW1_ICW4`: start the initialisation, in cascade mode, with ICW4. -/
def ICW1_INIT_ICW4 : Byte := 0x10 ||| 0x01

/-- 8086 mode. -/
def ICW4_8086 : Byte := 0x01

/-- Read the interrupt request register next. -/
def PIC_READ_IRR : Byte := 0x0a

/-- Read the in-service register next. -/
def PIC_READ_ISR : Byte := 0x0b

/-- `pic_send_eoi(irq)`. -/
def picSendEoi (irq : Byte) : Kern Unit := do
  onlyIf (8 ≤ irq.toNat) (writeByte PIC_SLAVE_COMMAND PIC_EOI)
  writeByte PIC_MASTER_COMMAND PIC_EOI

/-- `pic_remap(offset1, offset2)`; the offsets are stored and sent as bytes. -/
def picRemap (offset1 offset2 : Byte) : Kern Unit := do
  modifyKernel fun k => { k with pic := ⟨offset1, offset2⟩ }
  let maskMaster ← readByte PIC_MASTER_DATA
  let maskSlave ← readByte PIC_SLAVE_DATA
  -- ICW1
  writeByte PIC_MASTER_COMMAND ICW1_INIT_ICW4
  ioWait
  writeByte PIC_SLAVE_COMMAND ICW1_INIT_ICW4
  ioWait
  -- ICW2: the vector offsets
  writeByte PIC_MASTER_DATA offset1
  ioWait
  writeByte PIC_SLAVE_DATA offset2
  ioWait
  -- ICW3: the wiring
  writeByte PIC_MASTER_DATA 4
  ioWait
  writeByte PIC_SLAVE_DATA 2
  ioWait
  -- ICW4
  writeByte PIC_MASTER_DATA ICW4_8086
  ioWait
  writeByte PIC_SLAVE_DATA ICW4_8086
  ioWait
  writeByte PIC_MASTER_DATA maskMaster
  writeByte PIC_SLAVE_DATA maskSlave

/-- `pic_init()`. -/
def picInit : Kern Unit := picRemap 0x20 0x28

/-- `pic_disable()`. -/
def picDisable : Kern Unit := do
  writeByte PIC_MASTER_DATA 0xff
  writeByte PIC_SLAVE_DATA 0xff

/-- `pic_get_vector(irq)`, from the two static offsets. -/
def picGetVector (p : PicStatics) (irq : Byte) : Byte :=
  if irq.toNat < 8 then p.offset0 + irq else p.offset1 + (irq - 8)

/-- The data port of the chip that has the line, and the line on that chip. -/
def maskPort (irqLine : Byte) : Word × Byte :=
  if irqLine.toNat < 8 then (PIC_MASTER_DATA, irqLine) else (PIC_SLAVE_DATA, irqLine - 8)

/-- `irq_set_mask(irq_line)`. -/
def irqSetMask (irqLine : Byte) : Kern Unit := do
  let (port, bit) := maskPort irqLine
  let value ← readByte port
  writeByte port (value ||| (1#8 <<< bit.toNat))

/-- `irq_clear_mask(irq_line)`. -/
def irqClearMask (irqLine : Byte) : Kern Unit := procedure (.irqClearMask irqLine) do
  let (port, bit) := maskPort irqLine
  let value ← readByte port
  writeByte port (value &&& ~~~(1#8 <<< bit.toNat))

/-- `pic_get_irq_reg(ocw3)`. -/
def picGetIrqReg (ocw3 : Byte) : Kern Word := do
  writeByte PIC_MASTER_COMMAND ocw3
  writeByte PIC_SLAVE_COMMAND ocw3
  let slaveIrq ← readByte PIC_SLAVE_COMMAND
  let masterIrq ← readByte PIC_MASTER_COMMAND
  return slaveIrq ++ masterIrq

/-- `pic_get_irr()`. -/
def picGetIrr : Kern Word := picGetIrqReg PIC_READ_IRR

/-- `pic_get_isr()`. -/
def picGetIsr : Kern Word := picGetIrqReg PIC_READ_ISR

end DrewOS
