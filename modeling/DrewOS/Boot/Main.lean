/-
# The boot sequence

`main` of `src/kernel/kernel.c` and `disable_cursor` of `src/driver/vga.c`.  The
boot loader enters `main` with interrupts disabled.
-/

import DrewOS.Acpi.Rsdp
import DrewOS.Kernel.Interrupts
import DrewOS.Ps2.Init

namespace DrewOS

open ByteMem Effect Console

/-- `REG_CTRL` of `vga.c`. -/
def REG_CTRL : Word := 0x3d4

/-- `REG_DATA` of `vga.c`. -/
def REG_DATA : Word := 0x3d5

/-- `disable_cursor()`. -/
def disableCursor : Kern Unit := do
  writeByte REG_CTRL 0x0a
  writeByte REG_DATA 0x20

/-- The colours in the order of their values. -/
def colours : List Colour :=
  [.black, .blue, .green, .cyan, .red, .purple, .brown, .gray, .darkGray, .lightBlue,
    .lightGreen, .lightCyan, .lightRed, .lightPurple, .yellow, .white]

example : colours.map Colour.toNat = List.range 16 := by decide

/-- The loop of `main` over the 16 colours. -/
def printColours : List Colour → Kern Unit
  | [] => return ()
  | bg :: rest => do
    printMessage ⟨"     ", bg, bg, [], false⟩
    printColours rest

/-- Lines 10-22 of `kernel.c`: clear the screen and greet. -/
def mainGreet : Kern Unit := do
  clearScreen
  disableCursor
  println "Kernel has been loaded successfully." []
  printMessage ⟨"Welcome to drewOS!", .green, .black, [], true⟩
  println "" []
  printColours colours
  println "\n" []

/-- `main()`.  The recursions of the drivers and the wait of `acpi_enable` go at most
`n` deep. -/
def main (L : Layout) (n : ℕ) : Kern Unit := do
  mainGreet
  picInit
  idtInit L
  println "Interrupts successfully initialised." []
  Acpi.acpiInit n
  println "ACPI successfully initialised." []
  if ← Acpi.ps2ControllerExists then
    Ps2.ps2Init L n
  else
    println "ps2 controller does not exist" []
  println "\nThank you for using DrewOS!" []

end DrewOS
