/-
# The root system description pointer

`src/acpi/rsdp.c`, `rsdt_init` of `src/acpi/rsdt.c` and `src/acpi/acpi.c`.  The
pointer is searched for in the first kilobyte of the extended BIOS data area and
in the BIOS, at every 16th address.
-/

import DrewOS.Acpi.Fadt

namespace DrewOS
namespace Acpi

open ByteMem Effect

def EBDA_BASE_ADDRESS : Addr := 0x040e

def EBDA_SIZE : Dword := 1024

def BIOS_MAIN_START : Addr := 0x000e0000

def BIOS_MAIN_END : Addr := 0x000fffff

def RSDP_ALIGN : Addr := 16

/-- `"RSD PTR "`, read as a number. -/
def RSDP_SIGNATURE : BitVec 64 := 0x2052545020445352

/-- `sizeof(rsdp_t)`. -/
def RSDP_SIZE : ℕ := 20

/-! ### Fields of `rsdp_t` and `xsdp_t` -/

def RSDP_REVISION : Addr := 15

def RSDT_ADDRESS : Addr := 16

def XSDT_ADDRESS : Addr := 24

/-- `validate_rsdp(rsdp)`. -/
def validateRsdp (rsdp : Addr) : Kern Bool := do
  let signature ← loadQword rsdp
  if signature ≠ RSDP_SIGNATURE then
    return false
  else
    let checksum ← sumBytes RSDP_SIZE rsdp 0
    return checksum == 0

/-- The loop of `sdp_search`, with `n` candidates from `i` left. -/
def sdpSearchFrom : ℕ → Addr → Kern Addr
  | 0, _ => return 0
  | n + 1, i => do
    if ← validateRsdp i then return i else sdpSearchFrom n (i + RSDP_ALIGN)

/-- `sdp_search(start, end)`: the loop runs while its pointer is below `end`. -/
def sdpSearch (start stop : Addr) : Kern Addr :=
  sdpSearchFrom ((stop.toNat - start.toNat + 15) / 16) start

/-- `locate_sdp()`. -/
def locateSdp : Kern Addr := do
  let ebda ← loadWord EBDA_BASE_ADDRESS
  let ebdaStart : Addr := ebda.setWidth 32 <<< 4
  let sdp ← sdpSearch ebdaStart (ebdaStart + EBDA_SIZE)
  if sdp ≠ 0 then return sdp else sdpSearch BIOS_MAIN_START BIOS_MAIN_END

/-- `table && !validate_checksum(&table->header)`. -/
def rejects (table : Addr) : Kern Bool := do
  if table ≠ 0 then
    let valid ← validateChecksum table
    return !valid
  else
    return false

/-- `rsdt_init(r, x)`. -/
def rsdtInit (r x : Addr) : Kern Unit := do
  modifyAcpi fun a => { a with rsdt := r, xsdt := x }
  if ← rejects r then
    println "Invalid RSDT checksum" []
  else if ← rejects x then
    println "Invalid XSDT checksum" []
  else
    fadtInit
    madtInit

/-- `init_rsdp()`. -/
def initRsdp : Kern Unit := do
  let sdp ← locateSdp
  if sdp = 0 then
    println "Failed to locate valid RSDP/XSDP signature" []
  else
    let revision ← loadByte (sdp + RSDP_REVISION)
    if revision = 2 then
      modifyAcpi fun a => { a with rsdp := 0, xsdp := sdp }
      let xsdt ← loadQword (sdp + XSDT_ADDRESS)
      rsdtInit 0 (xsdt.setWidth 32)
    else
      modifyAcpi fun a => { a with rsdp := sdp, xsdp := 0 }
      let rsdt ← loadDword (sdp + RSDT_ADDRESS)
      rsdtInit rsdt 0

/-- `acpi_init()`. -/
def acpiInit (n : ℕ) : Kern Unit := do
  initRsdp
  acpiEnable n

end Acpi
end DrewOS
