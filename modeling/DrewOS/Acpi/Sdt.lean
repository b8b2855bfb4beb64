/-
# System description tables

`src/acpi/rsdt.c`.  The root table, RSDT or XSDT, starts with a header of 36
bytes and lists the addresses of the other tables; `get_sdt` looks for the first
of them with a valid checksum and the wanted signature.

A table is read byte by byte from physical memory, and every address that is
read is logged.  The length of a table is read once by the model and with every
round of the loop by the source: nothing writes to memory in between.
-/

import DrewOS.Kernel.Machine
import DrewOS.Memory.Words

namespace DrewOS

open ByteMem Effect

/-- A little-endian word of memory. -/
def loadWord (a : Addr) : Kern Word := do
  let b0 ← loadByte a
  let b1 ← loadByte (a + 1)
  return b1 ++ b0

/-- A little-endian doubleword of memory. -/
def loadDword (a : Addr) : Kern Dword := do
  let b0 ← loadByte a
  let b1 ← loadByte (a + 1)
  let b2 ← loadByte (a + 2)
  let b3 ← loadByte (a + 3)
  return BitVec.ofNat 32 (b0.toNat + 2 ^ 8 * b1.toNat + 2 ^ 16 * b2.toNat + 2 ^ 24 * b3.toNat)

/-- **The doubleword that is read is the one in memory.** -/
theorem run_loadDword {ε : Type} (b : Bus ε) (a : Addr) (w : World ε) :
    ∃ t, (loadDword a).run (machine b) w = (some (w.mem.load32 a), t) ∧
      t.mem = w.mem ∧ t.kernel = w.kernel ∧ t.bus = w.bus :=
  ⟨_, rfl, rfl, rfl, rfl⟩

/-- A little-endian quadword of memory. -/
def loadQword (a : Addr) : Kern (BitVec 64) := do
  let low ← loadDword a
  let high ← loadDword (a + 4)
  return high ++ low

/-- `for (i = 0; i < n; i++) checksum += a[i];` -/
def sumBytes : ℕ → Addr → Byte → Kern Byte
  | 0, _, checksum => return checksum
  | n + 1, a, checksum => do
    let b ← loadByte a
    sumBytes n (a + 1) (checksum + b)

namespace Acpi

/-- `sizeof(acpi_sdt_header_t)`. -/
def SDT_HEADER_SIZE : Dword := 36

/-- `header->length`. -/
def LENGTH : Addr := 4

/-- `header->revision`. -/
def REVISION : Addr := 8

/-- `const char signature[SDT_HEADER_LEN]`. -/
abbrev Signature : Type := Vector Byte 4

/-- `validate_checksum(header)`. -/
def validateChecksum (header : Addr) : Kern Bool := do
  let length ← loadDword (header + LENGTH)
  let checksum ← sumBytes length.toNat header 0
  return checksum == 0

/-- The loop of `validate_signature`: the bytes from `a` are those expected. -/
def matchBytes : Addr → List Byte → Kern Bool
  | _, [] => return true
  | a, c :: cs => do
    let b ← loadByte a
    if b ≠ c then return false else matchBytes (a + 1) cs

/-- `validate_signature(header, signature)`. -/
def validateSignature (header : Addr) (signature : Signature) : Kern Bool :=
  matchBytes header signature.toList

/-- `get_num_tables()`.  Entries of the XSDT are counted with the size of a pointer,
too. -/
def getNumTables : Kern Dword := do
  let k ← getKernel
  if k.acpi.rsdt ≠ 0 then
    let length ← loadDword (k.acpi.rsdt + LENGTH)
    return (length - SDT_HEADER_SIZE) / 4
  else if k.acpi.xsdt ≠ 0 then
    let length ← loadDword (k.acpi.xsdt + LENGTH)
    return (length - SDT_HEADER_SIZE) / 4
  else
    return 0

/-- `get_table(i)`. -/
def getTable (i : Dword) : Kern Addr := do
  let k ← getKernel
  if k.acpi.rsdt ≠ 0 then
    loadDword (k.acpi.rsdt + SDT_HEADER_SIZE + 4 * i)
  else if k.acpi.xsdt ≠ 0 then
    let header ← loadQword (k.acpi.xsdt + SDT_HEADER_SIZE + 8 * i)
    return header.setWidth 32
  else
    return 0

/-- `validate_checksum(header) && validate_signature(header, signature)`. -/
def validateTable (header : Addr) (signature : Signature) : Kern Bool := do
  if ← validateChecksum header then
    validateSignature header signature
  else
    return false

/-- The loop of `get_sdt`, with `n` tables from number `i` left. -/
def getSdtFrom (signature : Signature) : ℕ → Dword → Kern Addr
  | 0, _ => return 0
  | n + 1, i => do
    let header ← getTable i
    if ← validateTable header signature then
      return header
    else
      getSdtFrom signature n (i + 1)

/-- `get_sdt(signature)`. -/
def getSdt (signature : Signature) : Kern Addr := do
  let n ← getNumTables
  getSdtFrom signature n.toNat 0

end Acpi
end DrewOS
