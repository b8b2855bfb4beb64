/-
# What the drivers print and touch

The code of the boot sequence is almost all orderly: it writes to the ports of the
devices that it drives and reads from those that it polls, every print is a line whose
arguments fit (`isLine`), and the statics of `ps2.c` are all that it assigns.  One lemma
for each function says so, whatever the devices answer and the memory holds.

What is not orderly is done by `mainGreet`, `idtInit`, `acpiEnable` and `ps2KbdStart`
themselves, and is left to `DrewOS.Boot.Confined`.
-/

import DrewOS.Acpi.Startup
import DrewOS.Boot.Gates
import DrewOS.Console.Message
import DrewOS.Kernel.Trap

namespace DrewOS

open ByteMem Effect

/-- The ports that the drivers write. -/
def driverPorts : List Word :=
  [PIC_MASTER_COMMAND, PIC_MASTER_DATA, PIC_SLAVE_COMMAND, PIC_SLAVE_DATA, 0x80, Ps2.PORT_DATA,
    Ps2.PORT_COMMAND]

/-- The ports that are read, with those that the stub of the interrupts reads. -/
def readPorts : List Word :=
  [PIC_MASTER_COMMAND, PIC_MASTER_DATA, PIC_SLAVE_COMMAND, PIC_SLAVE_DATA, Ps2.PORT_DATA,
    Ps2.PORT_STATUS]

/-- What orderly code does. -/
def Ordinary : Event → Prop
  | .inb port _ => port ∈ readPorts
  | .outb port _ => port ∈ driverPorts
  | .print m => isLine m.text m.args = true
  | .load _ => True
  | .enter _ => True
  | .leave _ _ => True
  | _ => False

/-- No statics but those of `ps2.c` are assigned. -/
def OnlyPs2 (k k' : Kernel) : Prop := ∃ p, k' = { k with ps2 := p }

theorem OnlyPs2.refl (k : Kernel) : OnlyPs2 k k := ⟨k.ps2, rfl⟩

theorem OnlyPs2.trans (k k' k'' : Kernel) : OnlyPs2 k k' → OnlyPs2 k' k'' → OnlyPs2 k k'' := by
  rintro ⟨p, rfl⟩ ⟨p', rfl⟩
  exact ⟨p', rfl⟩

/-- Code that is orderly, and assigns no statics but those of `ps2.c`. -/
abbrev Orderly {α : Type} (p : Kern α) : Prop := Stays Ordinary OnlyPs2 p

/-- Orderly code raises no interrupt. -/
theorem Orderly.unraised {α : Type} {p : Kern α} (hp : Orderly p) :
    Stays Unraised (fun _ _ => True) p := by
  refine hp.mono (fun e he => ?_) fun _ _ _ => trivial
  cases e with
  | int v => exact absurd he id
  | _ => trivial

/-- The report of an interrupt is a line, whatever the registers hold. -/
theorem isLine_interrupt (vector isr irr : Dword) :
    isLine "INTERRUPT %d (%x), isr = %x, irr = %x"
      [.int vector, .int vector, .int isr, .int irr] = true := rfl

/-- The stub of the interrupts is orderly where it invokes nothing. -/
theorem ordinary_of_reporting {e : Event} (he : Reporting e) : Ordinary e := by
  have hports : ∀ port ∈ commandPorts, port ∈ readPorts ∧ port ∈ driverPorts := by
    intro port hport
    rcases List.mem_pair.1 hport with rfl | rfl <;> decide
  cases e with
  | inb port r => exact (hports port he).1
  | outb port d => exact (hports port he).2
  | print m =>
    obtain ⟨vector, isr, irr, rfl⟩ := he
    exact isLine_interrupt vector isr irr
  | _ => exact absurd he id

section Operations

variable {text : String} {args : List Arg}

/-- A line of the boot sequence may be printed. -/
theorem orderly_println (h : isLine text args = true) : Orderly (println text args) :=
  stays_printMessage h

theorem orderly_readByte {port : Word} (h : port ∈ readPorts) : Orderly (readByte port) :=
  stays_readByte fun _ => h

theorem orderly_writeByte {port : Word} (h : port ∈ driverPorts) (d : Byte) :
    Orderly (writeByte port d) :=
  stays_writeByte h

theorem orderly_procedure (f : Fn) {p : Kern Unit} (h : Orderly p) : Orderly (procedure f p) :=
  stays_procedure trivial trivial h

theorem orderly_function (f : Fn) {p : Kern Byte} (h : Orderly p) : Orderly (function f p) :=
  stays_function trivial (fun _ => trivial) h

end Operations

/-! ### The interrupt controllers -/

/-- `irq_clear_mask` reads and writes a mask register. -/
theorem orderly_irqClearMask {line : Byte} (hin : (maskPort line).1 ∈ readPorts)
    (hout : (maskPort line).1 ∈ driverPorts) : Orderly (irqClearMask line) :=
  stays_irqClearMask trivial trivial (fun _ => hin) fun _ => hout

/-! ### The controller -/

namespace Ps2

theorem orderly_commandReady : Orderly commandReady :=
  (orderly_readByte (by decide)).bind fun _ => stays_pure _

theorem orderly_responseReady : Orderly responseReady :=
  (orderly_readByte (by decide)).bind fun _ => stays_pure _

theorem orderly_ps2BufferWait : Orderly ps2BufferWait :=
  (stays_waitLoop orderly_commandReady _).bind fun _ => stays_pure _

theorem orderly_responseWait : Orderly responseWait :=
  (stays_waitLoop orderly_responseReady _).bind fun _ => stays_pure _

theorem orderly_tryReadData : Orderly tryReadData :=
  orderly_responseWait.bind fun _ =>
    stays_ite _ ((orderly_readByte (by decide)).bind fun _ => stays_pure _) (stays_pure _)

/-- `ps2_read_data` uses the ports of the controller. -/
theorem orderly_ps2ReadData : Orderly ps2ReadData := by
  refine orderly_function _ (orderly_tryReadData.bind fun r => ?_)
  cases r with
  | some byte => exact stays_pure _
  | none => exact (orderly_println rfl).bind fun _ => stays_pure _

/-- `ps2_send_data` uses the ports of the controller. -/
theorem orderly_ps2SendData (data : Byte) : Orderly (ps2SendData data) :=
  orderly_ps2BufferWait.bind fun _ =>
    stays_ite _ (orderly_writeByte (by decide) _) (orderly_println rfl)

/-- `ps2_send_command` uses the ports of the controller. -/
theorem orderly_ps2SendCommand (command : Byte) : Orderly (ps2SendCommand command) :=
  orderly_procedure _ <| orderly_ps2BufferWait.bind fun _ =>
    stays_ite _ (orderly_writeByte (by decide) _) (orderly_println rfl)

theorem orderly_attemptCommand (cmd : Byte) (port : Port) : Orderly (attemptCommand cmd port) :=
  (stays_onlyIf _ fun _ => orderly_ps2SendCommand _).bind fun _ =>
    (orderly_ps2SendData _).bind fun _ => orderly_tryReadData

theorem orderly_reportResponse (cmd : Byte) (port : Port) (resp : Option Byte) :
    Orderly (reportResponse cmd port resp) := by
  cases resp with
  | some resp => exact stays_ite _ (stays_pure _) (orderly_println rfl)
  | none => exact orderly_println rfl

/-- `ps2_send_device_command` is orderly, however often it sends. -/
theorem orderly_ps2SendDeviceCommand (n : ℕ) (cmd : Byte) (port : Port) :
    Orderly (ps2SendDeviceCommand n cmd port) := by
  induction n with
  | zero => exact stays_cut
  | succ n ih =>
    exact orderly_procedure _ <| (orderly_attemptCommand cmd port).bind fun resp =>
      stays_ite _ ih (orderly_reportResponse cmd port resp)

/-- `ps2_get_config` is orderly. -/
theorem orderly_ps2GetConfig : Orderly ps2GetConfig :=
  orderly_function _ <| (orderly_ps2SendCommand _).bind fun _ => orderly_ps2ReadData

/-- `ps2_set_config` is orderly. -/
theorem orderly_ps2SetConfig (config : Byte) : Orderly (ps2SetConfig config) :=
  orderly_procedure _ <| (orderly_ps2SendCommand _).bind fun _ => orderly_ps2SendData _

theorem orderly_modifyPs2 (f : Ps2Statics → Ps2Statics) : Orderly (modifyPs2 f) :=
  stays_modifyKernel fun _ => ⟨_, rfl⟩

theorem orderly_modifyDeviceId (port : Port) (f : Word → Word) :
    Orderly (modifyDeviceId port f) :=
  orderly_modifyPs2 _

/-! ### Resetting a port -/

theorem orderly_resetResponse : Orderly resetResponse := by
  refine orderly_tryReadData.bind fun r => ?_
  cases r with
  | none => exact stays_pure _
  | some resp0 =>
    refine orderly_tryReadData.bind fun r => ?_
    cases r with
    | none => exact stays_pure _
    | some resp1 =>
      refine orderly_tryReadData.bind fun r => ?_
      cases r <;> exact stays_pure _

theorem orderly_reportReset (port : Port) (resp0 resp1 : Byte) :
    Orderly (reportReset port resp0 resp1) :=
  stays_ite _ (stays_pure _) (orderly_println rfl)

theorem orderly_readSpecialCode (port : Port) : Orderly (readSpecialCode port) := by
  refine orderly_tryReadData.bind fun r => ?_
  cases r with
  | none => exact stays_pure _
  | some code => exact orderly_modifyDeviceId _ _

theorem orderly_identifyPort (port : Port) : Orderly (identifyPort port) := by
  refine orderly_tryReadData.bind fun r => ?_
  cases r with
  | none => exact stays_pure _
  | some response =>
    refine (orderly_modifyDeviceId _ _).bind fun _ => orderly_tryReadData.bind fun r => ?_
    cases r with
    | none => exact stays_pure _
    | some response => exact orderly_modifyDeviceId _ _

/-- `reset_port` is orderly. -/
theorem orderly_resetPort (n : ℕ) (port : Port) : Orderly (resetPort n port) := by
  have hdev : ∀ cmd, Orderly (ps2SendDeviceCommand n cmd port) := fun cmd =>
    orderly_ps2SendDeviceCommand n cmd port
  refine orderly_procedure _ ?_
  refine (stays_onlyIf _ fun _ => orderly_ps2SendCommand _).bind fun _ => ?_
  refine (orderly_ps2SendData _).bind fun _ => orderly_resetResponse.bind fun r => ?_
  cases r with
  | none => exact (orderly_modifyDeviceId _ _).bind fun _ => orderly_println rfl
  | some r =>
    obtain ⟨resp0, resp1, resp2⟩ := r
    refine stays_ite _ (orderly_println rfl) ?_
    exact (orderly_reportReset port resp0 resp1).bind fun _ =>
      (orderly_modifyDeviceId _ _).bind fun _ =>
      (stays_onlyIf _ fun _ => orderly_readSpecialCode port).bind fun _ =>
      (hdev _).bind fun _ => (hdev _).bind fun _ => (orderly_identifyPort port).bind fun _ =>
      hdev _

/-! ### Initialisation -/

/-- `ps2Disable` is orderly. -/
theorem orderly_ps2Disable : Orderly ps2Disable :=
  (orderly_ps2SendCommand _).bind fun _ => (orderly_ps2SendCommand _).bind fun _ =>
    (orderly_readByte (by decide)).bind fun _ => orderly_ps2GetConfig.bind fun _ =>
    (orderly_ps2SetConfig _).bind fun _ => stays_pure _

/-- `ps2TestController` is orderly. -/
theorem orderly_ps2TestController (config : Byte) : Orderly (ps2TestController config) := by
  refine (orderly_ps2SendCommand _).bind fun _ => orderly_ps2ReadData.bind fun result =>
    stays_ite _ ((orderly_println rfl).bind fun _ => stays_pure _) ?_
  exact orderly_ps2GetConfig.bind fun _ =>
    (stays_onlyIf _ fun _ => orderly_ps2SetConfig _).bind fun _ => stays_pure _

/-- `ps2DetectChannels` is orderly. -/
theorem orderly_ps2DetectChannels : Orderly ps2DetectChannels :=
  (orderly_ps2SendCommand _).bind fun _ => orderly_ps2GetConfig.bind fun _ =>
    (orderly_modifyPs2 _).bind fun _ => stays_getKernel.bind fun _ => stays_onlyIf _ fun _ =>
    (orderly_ps2SendCommand _).bind fun _ => orderly_ps2SetConfig _

theorem orderly_printPortErrorMsg (status : Byte) : Orderly (printPortErrorMsg status) := by
  refine orderly_println ?_
  split_ifs <;> rfl

theorem orderly_testPort (command : Byte) (setFlag : Bool → Ps2Statics → Ps2Statics)
    {text : String} (h : isLine text [] = true) : Orderly (testPort command setFlag text) :=
  (orderly_ps2SendCommand _).bind fun _ => orderly_ps2ReadData.bind fun _ =>
    (orderly_modifyPs2 _).bind fun _ => stays_onlyIf _ fun _ =>
    (stays_printMessage h).bind fun _ => orderly_printPortErrorMsg _

/-- `ps2TestPorts` is orderly. -/
theorem orderly_ps2TestPorts : Orderly ps2TestPorts :=
  (orderly_testPort _ _ rfl).bind fun _ => stays_getKernel.bind fun _ =>
    stays_onlyIf _ fun _ => orderly_testPort _ _ rfl

/-- `ps2EnablePorts` is orderly. -/
theorem orderly_ps2EnablePorts : Orderly ps2EnablePorts :=
  stays_getKernel.bind fun _ => (stays_onlyIf _ fun _ => orderly_ps2SendCommand _).bind fun _ =>
    stays_onlyIf _ fun _ => orderly_ps2SendCommand _

/-- `ps2EnableInterrupts` is orderly. -/
theorem orderly_ps2EnableInterrupts : Orderly ps2EnableInterrupts :=
  orderly_ps2GetConfig.bind fun _ => stays_getKernel.bind fun _ => orderly_ps2SetConfig _

/-! ### The keyboard driver -/

/-- `ps2_kbd_send_cmd` is orderly. -/
theorem orderly_ps2KbdSendCmd (n : ℕ) (cmd : Byte) : Orderly (ps2KbdSendCmd n cmd) :=
  stays_getKernel.bind fun _ => orderly_ps2SendDeviceCommand _ _ _

theorem orderly_setScanCodesRound (n : ℕ) (set : ScanCodeSet) :
    Orderly (setScanCodesRound n set) := by
  have hget : Orderly (ps2KbdGetScanCode n) :=
    (orderly_ps2KbdSendCmd n _).bind fun _ => orderly_ps2ReadData.bind fun _ => stays_pure _
  refine (orderly_ps2KbdSendCmd n _).bind fun _ => (orderly_ps2SendData _).bind fun _ =>
    hget.bind fun newSet => stays_ite _ ?_ (stays_pure _)
  exact (orderly_println rfl).bind fun _ => stays_pure _

/-- `ps2_kbd_set_scan_codes` is orderly, however many rounds it takes. -/
theorem orderly_ps2KbdSetScanCodes (n : ℕ) (set : ScanCodeSet) :
    Orderly (ps2KbdSetScanCodes n set) := by
  induction n with
  | zero => exact stays_cut
  | succ n ih =>
    exact orderly_procedure _ <| (orderly_setScanCodesRound n set).bind fun wrong =>
      stays_ite _ ih (stays_pure _)

/-- The names of the device types are short lines of their own. -/
theorem quiet_getDeviceTypeStr (type : DeviceType) :
    Printing.quiet (.str (getDeviceTypeStr type)) = true := by
  cases type <;> rfl

/-- So the report of a device is a line. -/
theorem isLine_success (port : Port) (type : DeviceType) :
    isLine "Port %d successfully initialised. Device type: %s"
      [.int (portNo port), .str (getDeviceTypeStr type)] = true := by
  have hquiet := quiet_getDeviceTypeStr type
  generalize getDeviceTypeStr type = name at hquiet
  have hargs : [Arg.int (portNo port), .str name].all Printing.quiet = true := by
    rw [List.all_cons, List.all_cons, hquiet]
    rfl
  unfold isLine
  rw [hargs]
  rfl

end Ps2

/-! ### The search for the tables -/

section Emits

variable {ε α β : Type}

/-- The run of the code adds ordinary events to the log, from any state. -/
def Emits (b : Bus ε) (p : Kern α) : Prop :=
  ∀ w, ∃ l, (p.run (machine b) w).2.log = w.log ++ l ∧ ∀ e ∈ l, Ordinary e

variable {b : Bus ε}

/-- What both parts emit is in order. -/
theorem Emits.bind {p : Kern α} {f : α → Kern β} (hp : Emits b p) (hf : ∀ a, Emits b (f a)) :
    Emits b (p >>= f) := by
  intro w
  obtain ⟨l, hl, hE⟩ := hp w
  rw [Prog.run_bind]
  rcases hrun : p.run (machine b) w with ⟨_ | a, t⟩
  · rw [hrun] at hl
    exact ⟨l, hl, hE⟩
  · rw [hrun] at hl
    obtain ⟨l', hl', hE'⟩ := hf a t
    refine ⟨l ++ l', by rw [hl', hl, List.append_assoc], fun e he => ?_⟩
    exact (List.mem_append.1 he).elim (hE e) (hE' e)

theorem emits_ret (a : α) : Emits b (.ret a) := fun _ =>
  ⟨[], (List.append_nil _).symm, fun _ he => absurd he List.not_mem_nil⟩

theorem emits_ite (c : Prop) [Decidable c] {p q : Kern α} (hp : Emits b p) (hq : Emits b q) :
    Emits b (if c then p else q) := by
  split_ifs
  · exact hp
  · exact hq

theorem emits_println {text : String} {args : List Arg} (h : isLine text args = true) :
    Emits b (println text args) := fun _ =>
  ⟨[.print ⟨text, .white, .black, args, true⟩], rfl, fun _ he => List.mem_singleton.1 he ▸ h⟩

/-- Code that only reads. -/
theorem emits_of_yields {p : Kern α} (h : ∀ w, ∃ v, Acpi.Yields b p w v) : Emits b p := by
  intro w
  obtain ⟨v, t, hrun, ht⟩ := h w
  obtain ⟨l, hl, hload⟩ := ht.log
  rw [hrun]
  refine ⟨l, hl, fun e he => ?_⟩
  obtain ⟨a, rfl⟩ := hload e he
  trivial

namespace Acpi

theorem emits_modifyAcpi (f : AcpiStatics → AcpiStatics) : Emits b (modifyAcpi f) := fun _ =>
  ⟨[], (List.append_nil _).symm, fun _ he => absurd he List.not_mem_nil⟩

/-- `fadt_init` prints lines only. -/
theorem emits_fadtInit : Emits b fadtInit :=
  (emits_of_yields fun w => ⟨_, yields_getSdt _ w⟩).bind fun _ =>
    (emits_modifyAcpi _).bind fun _ => emits_ite _ (emits_println rfl) (emits_ret _)

/-- `madt_init` prints lines only. -/
theorem emits_madtInit : Emits b madtInit :=
  (emits_of_yields fun w => ⟨_, yields_getSdt _ w⟩).bind fun _ =>
    (emits_modifyAcpi _).bind fun _ => emits_ite _ (emits_println rfl) (emits_ret _)

/-- `rsdt_init` prints lines only. -/
theorem emits_rsdtInit (r x : Addr) : Emits b (rsdtInit r x) :=
  (emits_modifyAcpi _).bind fun _ =>
    (emits_of_yields fun w => ⟨_, yields_rejects r w⟩).bind fun _ =>
    emits_ite _ (emits_println rfl) <|
    (emits_of_yields fun w => ⟨_, yields_rejects x w⟩).bind fun _ =>
    emits_ite _ (emits_println rfl) <| emits_fadtInit.bind fun _ => emits_madtInit

/-- `init_rsdp` prints lines only. -/
theorem emits_initRsdp : Emits b initRsdp := by
  refine (emits_of_yields fun w => ⟨_, yields_locateSdp w⟩).bind fun _ =>
    emits_ite _ (emits_println rfl) ?_
  refine (emits_of_yields fun w => ⟨_, yields_loadByte _ w⟩).bind fun _ =>
    emits_ite _ ?_ ?_
  · exact (emits_modifyAcpi _).bind fun _ =>
      (emits_of_yields fun w => ⟨_, yields_loadQword _ w⟩).bind fun _ => emits_rsdtInit _ _
  · exact (emits_modifyAcpi _).bind fun _ =>
      (emits_of_yields fun w => ⟨_, yields_loadDword _ w⟩).bind fun _ => emits_rsdtInit _ _

end Acpi
end Emits

end DrewOS
