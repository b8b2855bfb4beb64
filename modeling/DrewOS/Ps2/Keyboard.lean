/-
# The keyboard driver

`src/driver/ps2_keyboard.c`.  The driver is started once: it unmasks IRQ 1,
asks the keyboard for scan code set 1 until the keyboard says that it uses it,
and installs its interrupt handler.
-/

import DrewOS.Ps2.Controller

namespace DrewOS
namespace Ps2

open ByteMem Effect

/-- IRQ 1. -/
def PS2_KBD_IRQ : Byte := 0x01

/-- Get or set the scan code set; the argument byte says which. -/
def CMD_SET_SCAN_CODE : Byte := 0xf0

def CMD_GET_SCAN_CODE : Byte := CMD_SET_SCAN_CODE

def CMD_KEY_ENABLE_SCAN : Byte := 0xf4

/-- `get_scan_code_set_id(set)`. -/
def getScanCodeSetId : ScanCodeSet → Byte
  | .set1 => 1
  | .set2 => 2
  | .set3 => 3

/-- `get_scan_code_set(id)`. -/
def getScanCodeSet (id : Byte) : ScanCodeSet :=
  if id = 3 then .set3 else if id = 2 then .set2 else .set1

/-- `ps2_kbd_send_cmd(cmd)`: to the port that the driver was started for. -/
def ps2KbdSendCmd (n : ℕ) (cmd : Byte) : Kern Unit := do
  let k ← getKernel
  ps2SendDeviceCommand n cmd k.kbd.port

/-- `ps2_kbd_get_scan_code()`. -/
def ps2KbdGetScanCode (n : ℕ) : Kern ScanCodeSet := do
  ps2KbdSendCmd n CMD_GET_SCAN_CODE
  let id ← ps2ReadData
  return getScanCodeSet id

/-- One round of `ps2_kbd_set_scan_codes(set)`: send the command, read the set
back, and say whether it is another one. -/
def setScanCodesRound (n : ℕ) (set : ScanCodeSet) : Kern Bool := do
  ps2KbdSendCmd n CMD_SET_SCAN_CODE
  ps2SendData (getScanCodeSetId set)
  let newSet ← ps2KbdGetScanCode n
  if newSet ≠ set then
    println "ps2_kbd_get_scan_code() gives scan code %d but expected %d..."
      [byteArg (getScanCodeSetId newSet), byteArg (getScanCodeSetId set)]
    return true
  else
    return false

/-- `ps2_kbd_set_scan_codes(set)`, calling itself at most `n` deep. -/
def ps2KbdSetScanCodes : ℕ → ScanCodeSet → Kern Unit
  | 0, _ => .cut
  | n + 1, set => procedure (.kbdSetScanCodes set) do
    let wrong ← setScanCodesRound n set
    if wrong then
      ps2KbdSetScanCodes n set
    else
      return ()

/-- `ps2_kbd_init(port)`, after the vector and the port have been stored. -/
def ps2KbdStart (L : Layout) (n : ℕ) (port : Port) : Kern Unit := do
  println "Initialising PS/2 keyboard in port %d..." [.int (portNo port)]
  println "Unmasking IRQ1..." []
  irqClearMask PS2_KBD_IRQ
  println "Enabling scanning..." []
  ps2KbdSendCmd n CMD_KEY_ENABLE_SCAN
  println "Enabling scan code 1..." []
  ps2KbdSetScanCodes n .set1
  println "Installing IRQ handler..." []
  modifyKernel fun k =>
    { k with idt := idtInstallIrqHandler L k.kbd.vector (L.ptr .ps2KbdIrqHandler) k.idt }
  println "Triggerring interrupt 0x21..." []
  int 0x21
  println "Successfully triggered interrupt 0x21!" []

/-- `ps2_kbd_init(port)`. -/
def ps2KbdInit (L : Layout) (n : ℕ) (port : Port) : Kern Unit := procedure (.kbdInit port) do
  let k ← getKernel
  if k.kbd.vector ≠ 0 then
    return ()
  else
    modifyKernel fun k => { k with kbd := ⟨picGetVector k.pic PS2_KBD_IRQ, port⟩ }
    ps2KbdStart L n port

end Ps2
end DrewOS
