/-
# The fixed ACPI description table

`src/acpi/fadt.c` and `src/acpi/madt.c`.  `acpi_enable` asks the firmware to hand
over by writing to the SMI command port that the table names, and polls the
control register until it has.
-/

import DrewOS.Acpi.Sdt

namespace DrewOS
namespace Acpi

open ByteMem Effect

/-- An assignment to the ACPI statics. -/
def modifyAcpi (f : AcpiStatics → AcpiStatics) : Kern Unit :=
  modifyKernel fun k => { k with acpi := f k.acpi }

/-- `"FACP"`. -/
def FADT_SIGNATURE : Signature := #v[0x46, 0x41, 0x43, 0x50]

/-- `"APIC"`. -/
def MADT_SIGNATURE : Signature := #v[0x41, 0x50, 0x49, 0x43]

/-! ### Fields of `fadt_t` -/

def SMI_COMMAND_PORT : Addr := 48

def ACPI_ENABLE : Addr := 52

def PM1A_CONTROL_BLOCK : Addr := 64

def BOOT_ARCHITECTURE_FLAGS : Addr := 109

/-- `fadt_init()`. -/
def fadtInit : Kern Unit := do
  let fadt ← getSdt FADT_SIGNATURE
  modifyAcpi fun a => { a with fadt := fadt }
  onlyIf (fadt = 0) (println "Failed to locate FADT" [])

/-- `madt_init()`. -/
def madtInit : Kern Unit := do
  let madt ← getSdt MADT_SIGNATURE
  modifyAcpi fun a => { a with madt := madt }
  onlyIf (madt = 0) (println "Failed to locate MADT" [])

/-- `while ((read_word(fadt->pm1a_control_block) & 1) == 0);`, at most `n` rounds. -/
def enableWait (fadt : Addr) : ℕ → Kern Unit
  | 0 => .cut
  | n + 1 => do
    let port ← loadDword (fadt + PM1A_CONTROL_BLOCK)
    let control ← readWord (port.setWidth 16)
    if control &&& 1 = 0 then enableWait fadt n else return ()

/-- `acpi_enable()`.  The table is not checked: through `NULL` the fields are read
from the bottom of memory.  Both ports are passed as 16-bit numbers. -/
def acpiEnable (n : ℕ) : Kern Unit := procedure .acpiEnable do
  let k ← getKernel
  let port ← loadDword (k.acpi.fadt + SMI_COMMAND_PORT)
  let data ← loadByte (k.acpi.fadt + ACPI_ENABLE)
  writeByte (port.setWidth 16) data
  enableWait k.acpi.fadt n

/-- `ps2_controller_exists()`. -/
def ps2ControllerExists : Kern Bool := do
  let k ← getKernel
  if k.acpi.fadt = 0 then
    return true
  else
    let revision ← loadByte (k.acpi.fadt + REVISION)
    if revision.toNat < 2 then
      return true
    else
      let flags ← loadWord (k.acpi.fadt + BOOT_ARCHITECTURE_FLAGS)
      return (flags &&& 2) == 2

end Acpi
end DrewOS
