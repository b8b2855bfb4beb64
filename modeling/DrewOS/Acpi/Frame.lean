/-
# What the ACPI functions can do

Until `acpi_enable` is called, the code reads memory, prints and assigns the
ACPI statics: it touches no port.
-/

import DrewOS.Acpi.Rsdp
import DrewOS.Kernel.Trace

namespace DrewOS
namespace Acpi

open ByteMem Effect

variable {E : Event → Prop} {F : Kernel → Kernel → Prop}

/-- Reading memory and printing is in `E`. -/
structure Scans (E : Event → Prop) : Prop where
  load : ∀ a, E (.load a)
  print : ∀ m, E (.print m)

/-- Any assignment to the ACPI statics is along `F`. -/
def AssignsAcpi (F : Kernel → Kernel → Prop) : Prop := ∀ k a, F k { k with acpi := a }

/-- Printing is no more than scanning allows. -/
theorem Scans.stays_println (h : Scans E) (text : String) (args : List Arg) :
    Stays E F (println text args) :=
  stays_printMessage (h.print _)

theorem stays_loadWord (h : Scans E) (a : Addr) : Stays E F (loadWord a) :=
  (stays_loadByte (h.load _)).bind fun _ => (stays_loadByte (h.load _)).bind fun _ => stays_pure _

theorem stays_loadDword (h : Scans E) (a : Addr) : Stays E F (loadDword a) :=
  (stays_loadByte (h.load _)).bind fun _ => (stays_loadByte (h.load _)).bind fun _ =>
    (stays_loadByte (h.load _)).bind fun _ => (stays_loadByte (h.load _)).bind fun _ =>
    stays_pure _

theorem stays_loadQword (h : Scans E) (a : Addr) : Stays E F (loadQword a) :=
  (stays_loadDword h _).bind fun _ => (stays_loadDword h _).bind fun _ => stays_pure _

/-- `sumBytes` only loads. -/
theorem stays_sumBytes (h : Scans E) (n : ℕ) (a : Addr) (checksum : Byte) :
    Stays E F (sumBytes n a checksum) := by
  induction n generalizing a checksum with
  | zero => exact stays_pure _
  | succ n ih => exact (stays_loadByte (h.load _)).bind fun _ => ih _ _

/-- `validate_checksum` only loads. -/
theorem stays_validateChecksum (h : Scans E) (header : Addr) :
    Stays E F (validateChecksum header) :=
  (stays_loadDword h _).bind fun _ => (stays_sumBytes h _ _ _).bind fun _ => stays_pure _

/-- Comparing bytes only loads them. -/
theorem stays_matchBytes (h : Scans E) (a : Addr) (cs : List Byte) :
    Stays E F (matchBytes a cs) := by
  induction cs generalizing a with
  | nil => exact stays_pure _
  | cons c cs ih =>
    exact (stays_loadByte (h.load _)).bind fun _ => stays_ite _ (stays_pure _) (ih _)

/-- `get_num_tables` only loads. -/
theorem stays_getNumTables (h : Scans E) : Stays E F getNumTables :=
  stays_getKernel.bind fun _ => stays_ite _ ((stays_loadDword h _).bind fun _ => stays_pure _)
    (stays_ite _ ((stays_loadDword h _).bind fun _ => stays_pure _) (stays_pure _))

/-- `get_table` only loads. -/
theorem stays_getTable (h : Scans E) (i : Dword) : Stays E F (getTable i) :=
  stays_getKernel.bind fun _ => stays_ite _ (stays_loadDword h _)
    (stays_ite _ ((stays_loadQword h _).bind fun _ => stays_pure _) (stays_pure _))

/-- `validateTable` only loads and prints. -/
theorem stays_validateTable (h : Scans E) (header : Addr) (signature : Signature) :
    Stays E F (validateTable header signature) :=
  (stays_validateChecksum h _).bind fun _ => stays_ite _ (stays_matchBytes h _ _) (stays_pure _)

/-- The walk of `get_sdt` only loads and prints. -/
theorem stays_getSdtFrom (h : Scans E) (signature : Signature) (n : ℕ) (i : Dword) :
    Stays E F (getSdtFrom signature n i) := by
  induction n generalizing i with
  | zero => exact stays_pure _
  | succ n ih =>
    exact (stays_getTable h i).bind fun _ => (stays_validateTable h _ _).bind fun _ =>
      stays_ite _ (stays_pure _) (ih _)

/-- `get_sdt` only loads and prints. -/
theorem stays_getSdt (h : Scans E) (signature : Signature) : Stays E F (getSdt signature) :=
  (stays_getNumTables h).bind fun _ => stays_getSdtFrom h _ _ _

/-- The ACPI statics may be assigned. -/
theorem stays_modifyAcpi (hF : AssignsAcpi F) (f : AcpiStatics → AcpiStatics) :
    Stays E F (modifyAcpi f) :=
  stays_modifyKernel fun k => hF k _

/-- `fadt_init` scans, and assigns its static. -/
theorem stays_fadtInit (h : Scans E) (hF : AssignsAcpi F) : Stays E F fadtInit :=
  (stays_getSdt h _).bind fun _ => (stays_modifyAcpi hF _).bind fun _ =>
    stays_onlyIf _ fun _ => h.stays_println _ _

/-- `madt_init` scans, and assigns its static. -/
theorem stays_madtInit (h : Scans E) (hF : AssignsAcpi F) : Stays E F madtInit :=
  (stays_getSdt h _).bind fun _ => (stays_modifyAcpi hF _).bind fun _ =>
    stays_onlyIf _ fun _ => h.stays_println _ _

/-- `validate_rsdp` only loads and prints. -/
theorem stays_validateRsdp (h : Scans E) (rsdp : Addr) : Stays E F (validateRsdp rsdp) :=
  (stays_loadQword h _).bind fun _ => stays_ite _ (stays_pure _)
    ((stays_sumBytes h _ _ _).bind fun _ => stays_pure _)

/-- The scan of `locate_sdp` only loads and prints. -/
theorem stays_sdpSearchFrom (h : Scans E) (n : ℕ) (i : Addr) : Stays E F (sdpSearchFrom n i) := by
  induction n generalizing i with
  | zero => exact stays_pure _
  | succ n ih => exact (stays_validateRsdp h i).bind fun _ => stays_ite _ (stays_pure _) (ih _)

/-- `locate_sdp` only loads and prints. -/
theorem stays_locateSdp (h : Scans E) : Stays E F locateSdp :=
  (stays_loadWord h _).bind fun _ => (stays_sdpSearchFrom h _ _).bind fun _ =>
    stays_ite _ (stays_pure _) (stays_sdpSearchFrom h _ _)

/-- Checking a root only loads and prints. -/
theorem stays_rejects (h : Scans E) (table : Addr) : Stays E F (rejects table) :=
  stays_ite _ ((stays_validateChecksum h _).bind fun _ => stays_pure _) (stays_pure _)

/-- `rsdt_init` scans, and assigns the two roots. -/
theorem stays_rsdtInit (h : Scans E) (hF : AssignsAcpi F) (r x : Addr) :
    Stays E F (rsdtInit r x) :=
  (stays_modifyAcpi hF _).bind fun _ => (stays_rejects h r).bind fun _ =>
    stays_ite _ (h.stays_println _ _) <| (stays_rejects h x).bind fun _ =>
    stays_ite _ (h.stays_println _ _) <| (stays_fadtInit h hF).bind fun _ => stays_madtInit h hF

/-- **`init_rsdp` reads memory, prints and assigns the ACPI statics.** -/
theorem stays_initRsdp (h : Scans E) (hF : AssignsAcpi F) : Stays E F initRsdp := by
  refine (stays_locateSdp h).bind fun sdp => stays_ite _ (h.stays_println _ _) ?_
  refine (stays_loadByte (h.load _)).bind fun revision => stays_ite _ ?_ ?_
  · exact (stays_modifyAcpi hF _).bind fun _ => (stays_loadQword h _).bind fun _ =>
      stays_rsdtInit h hF _ _
  · exact (stays_modifyAcpi hF _).bind fun _ => (stays_loadDword h _).bind fun _ =>
      stays_rsdtInit h hF _ _

/-- The wait of `acpi_enable` reads the control register and scans. -/
theorem stays_enableWait (h : Scans E) (hin : ∀ port r, E (.inw port r)) (fadt : Addr) (n : ℕ) :
    Stays E F (enableWait fadt n) := by
  induction n with
  | zero => exact stays_cut
  | succ n ih =>
    exact (stays_loadDword h _).bind fun _ => (stays_readWord (hin _)).bind fun _ =>
      stays_ite _ ih (stays_pure _)

/-- `acpi_enable` writes one byte to a port that the table names. -/
theorem stays_acpiEnable (h : Scans E) (henter : E (.enter .acpiEnable))
    (hleave : E (.leave .acpiEnable none)) (hout : ∀ port d, E (.outb port d))
    (hin : ∀ port r, E (.inw port r)) (n : ℕ) : Stays E F (acpiEnable n) :=
  stays_procedure henter hleave <| stays_getKernel.bind fun _ =>
    (stays_loadDword h _).bind fun _ => (stays_loadByte (h.load _)).bind fun _ =>
    (stays_writeByte (hout _ _)).bind fun _ => stays_enableWait h hin _ n

/-- `ps2_controller_exists` only loads and prints. -/
theorem stays_ps2ControllerExists (h : Scans E) : Stays E F ps2ControllerExists :=
  stays_getKernel.bind fun _ => stays_ite _ (stays_pure _) <|
    (stays_loadByte (h.load _)).bind fun _ => stays_ite _ (stays_pure _) <|
    (stays_loadWord h _).bind fun _ => stays_pure _

/-! ### The command of `acpi_enable` -/

section Enable

variable {ε : Type}

/-- The state in which `acpi_enable` writes the command: its fields have been read. -/
def enableRead (w : World ε) : World ε :=
  let command := w.kernel.acpi.fadt + SMI_COMMAND_PORT
  ((((((w.say (.enter .acpiEnable)).say (.load command)).say (.load (command + 1))).say
    (.load (command + 2))).say (.load (command + 3))).say
      (.load (w.kernel.acpi.fadt + ACPI_ENABLE)))

/-- **The port and the command come out of memory unchecked.** -/
theorem states_acpiEnable_write (b : Bus ε) (n : ℕ) (w : World ε) :
    ((acpiEnable n).states (machine b) w)[7]? = some ((enableRead w).afterOutb b
      ((w.mem.load32 (w.kernel.acpi.fadt + SMI_COMMAND_PORT)).setWidth 16)
      (w.mem (w.kernel.acpi.fadt + ACPI_ENABLE))) := rfl

end Enable

end Acpi
end DrewOS
