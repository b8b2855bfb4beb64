/-
# What the PS/2 functions can do

One lemma for each function of `ps2.c` and `ps2_keyboard.c` that is no part of a
recursion: which events it may write (`stays_...`), and that it returns whatever
the devices answer (`cutFree_...`).
-/

import DrewOS.Ps2.Init
import DrewOS.Kernel.Trace
import DrewOS.Effect.Fuel

namespace DrewOS
namespace Ps2

open ByteMem Effect

variable {α : Type} {E : Event → Prop} {F : Kernel → Kernel → Prop}

/-- The argument is a number. -/
def isInt : Arg → Bool
  | .int _ => true
  | .str _ => false

/-- Reading both ports and printing numbers is in `E`. -/
structure Polls (E : Event → Prop) : Prop where
  status : ∀ r, E (.inb PORT_STATUS r)
  data : ∀ r, E (.inb PORT_DATA r)
  print : ∀ m, m.args.all isInt = true → E (.print m)

/-- The marks of a call of `f` are in `E`. -/
structure Calls (E : Event → Prop) (f : Fn) : Prop where
  enter : E (.enter f)
  leave : ∀ r, E (.leave f r)

/-- Sending a command to the controller is in `E`. -/
structure Sends (E : Event → Prop) (command : Byte) : Prop where
  call : Calls E (.sendCommand command)
  out : E (.outb PORT_COMMAND command)

/-! ### Events -/

/-- Printing numbers is within what polling allows. -/
theorem stays_println (h : Polls E) (text : String) (args : List Arg)
    (hargs : args.all isInt = true := by rfl) : Stays E F (println text args) :=
  stays_printMessage (h.print _ hargs)

/-- A wait does what its polls do. -/
theorem stays_waitLoop {ready : Kern Bool} (h : Stays E F ready) (n : ℕ) :
    Stays E F (waitLoop ready n) := by
  induction n with
  | zero => exact h.bind fun r => stays_ite _ (stays_pure _) (stays_pure _)
  | succ n ih => exact h.bind fun r => stays_ite _ (stays_pure _) ih

theorem stays_commandReady (h : Polls E) : Stays E F commandReady :=
  (stays_readByte h.status).bind fun _ => stays_pure _

theorem stays_responseReady (h : Polls E) : Stays E F responseReady :=
  (stays_readByte h.status).bind fun _ => stays_pure _

/-- `ps2_buffer_wait` only polls. -/
theorem stays_ps2BufferWait (h : Polls E) : Stays E F ps2BufferWait :=
  (stays_waitLoop (stays_commandReady h) _).bind fun _ => stays_pure _

/-- `response_wait` only polls. -/
theorem stays_responseWait (h : Polls E) : Stays E F responseWait :=
  (stays_waitLoop (stays_responseReady h) _).bind fun _ => stays_pure _

theorem stays_tryReadData (h : Polls E) : Stays E F tryReadData :=
  (stays_responseWait h).bind fun _ =>
    stays_ite _ ((stays_readByte h.data).bind fun _ => stays_pure _) (stays_pure _)

/-- `ps2_read_data` polls, and reads the data port. -/
theorem stays_ps2ReadData (h : Polls E) (hc : Calls E .readData) : Stays E F ps2ReadData := by
  refine stays_function hc.enter (fun r => hc.leave _) ((stays_tryReadData h).bind fun r => ?_)
  cases r with
  | some byte => exact stays_pure _
  | none => exact (stays_println h _ _).bind fun _ => stays_pure _

/-- `ps2_send_data` polls, and writes its byte. -/
theorem stays_ps2SendData (h : Polls E) {data : Byte} (hout : E (.outb PORT_DATA data)) :
    Stays E F (ps2SendData data) :=
  (stays_ps2BufferWait h).bind fun _ => stays_ite _ (stays_writeByte hout) (stays_println h _ _)

/-- `ps2_send_command` polls, and writes its command. -/
theorem stays_ps2SendCommand (h : Polls E) {command : Byte} (hs : Sends E command) :
    Stays E F (ps2SendCommand command) :=
  stays_procedure hs.call.enter (hs.call.leave _) <| (stays_ps2BufferWait h).bind fun _ =>
    stays_ite _ (stays_writeByte hs.out) (stays_println h _ _)

/-- An attempt writes the prefix and the command, and reads the answer. -/
theorem stays_attemptCommand (h : Polls E) {cmd : Byte} {port : Port}
    (hport : port = .port1 → Sends E CMD_WRITE_INPUT_PORT_1) (hout : E (.outb PORT_DATA cmd)) :
    Stays E F (attemptCommand cmd port) :=
  (stays_onlyIf _ fun hp => stays_ps2SendCommand h (hport hp)).bind fun _ =>
    (stays_ps2SendData h hout).bind fun _ => stays_tryReadData h

/-- Reporting a response only prints. -/
theorem stays_reportResponse (h : Polls E) (cmd : Byte) (port : Port) (resp : Option Byte) :
    Stays E F (reportResponse cmd port resp) := by
  cases resp with
  | some resp => exact stays_ite _ (stays_pure _) (stays_println h _ _)
  | none => exact stays_println h _ _

/-- Sending commands to the device on `port` is in `E`. -/
structure Drives (E : Event → Prop) (port : Port) : Prop where
  select : port = .port1 → Sends E CMD_WRITE_INPUT_PORT_1
  write : ∀ data, E (.outb PORT_DATA data)
  call : ∀ cmd, Calls E (.sendDeviceCommand cmd port)

/-- `ps2_send_device_command` makes attempts and reports. -/
theorem stays_ps2SendDeviceCommand (h : Polls E) {port : Port} (hd : Drives E port) (n : ℕ)
    (cmd : Byte) : Stays E F (ps2SendDeviceCommand n cmd port) := by
  induction n with
  | zero => exact stays_cut
  | succ n ih =>
    have hattempt : Stays E F (attemptCommand cmd port) :=
      stays_attemptCommand h hd.select (hd.write cmd)
    exact stays_procedure (hd.call cmd).enter ((hd.call cmd).leave _) <| hattempt.bind
      fun resp => stays_ite _ ih (stays_reportResponse h cmd port resp)

/-- `ps2_get_config` sends one command and reads its answer. -/
theorem stays_ps2GetConfig (h : Polls E) (hc : Calls E .getConfig) (hr : Calls E .readData)
    (hs : Sends E CMD_READ_RAM) : Stays E F ps2GetConfig :=
  stays_function hc.enter (fun _ => hc.leave _) <| (stays_ps2SendCommand h hs).bind fun _ =>
    stays_ps2ReadData h hr

/-- `ps2_set_config` sends one command and one byte. -/
theorem stays_ps2SetConfig (h : Polls E) {config : Byte} (hc : Calls E (.setConfig config))
    (hs : Sends E CMD_WRITE_RAM) (hout : E (.outb PORT_DATA config)) :
    Stays E F (ps2SetConfig config) :=
  stays_procedure hc.enter (hc.leave _) <| (stays_ps2SendCommand h hs).bind fun _ =>
    stays_ps2SendData h hout

theorem stays_modifyPs2 {f : Ps2Statics → Ps2Statics} (hf : ∀ k, F k { k with ps2 := f k.ps2 }) :
    Stays E F (modifyPs2 f) :=
  stays_modifyKernel hf

/-- Reading the response of a reset only polls. -/
theorem stays_resetResponse (h : Polls E) : Stays E F resetResponse := by
  refine (stays_tryReadData h).bind fun r => ?_
  cases r with
  | none => exact stays_pure _
  | some resp0 =>
    refine (stays_tryReadData h).bind fun r => ?_
    cases r with
    | none => exact stays_pure _
    | some resp1 =>
      refine (stays_tryReadData h).bind fun r => ?_
      cases r <;> exact stays_pure _

/-- Any assignment to the device ID stored for `port` is along `F`. -/
def AssignsIds (F : Kernel → Kernel → Prop) : Port → Prop
  | .port0 => ∀ k id, F k { k with ps2 := { k.ps2 with port0Id := id } }
  | .port1 => ∀ k id, F k { k with ps2 := { k.ps2 with port1Id := id } }

/-- Only the identity of the port is assigned. -/
theorem stays_modifyDeviceId {port : Port} (hF : AssignsIds F port) (f : Word → Word) :
    Stays E F (modifyDeviceId port f) := by
  refine stays_modifyPs2 fun k => ?_
  cases port with
  | port0 => exact hF k _
  | port1 => exact hF k _

/-- Reporting a reset only prints. -/
theorem stays_reportReset (h : Polls E) (port : Port) (resp0 resp1 : Byte) :
    Stays E F (reportReset port resp0 resp1) :=
  stays_ite _ (stays_pure _) (stays_println h _ _)

/-- Reading the special code polls, and assigns the identity. -/
theorem stays_readSpecialCode (h : Polls E) {port : Port} (hF : AssignsIds F port) :
    Stays E F (readSpecialCode port) := by
  refine (stays_tryReadData h).bind fun r => ?_
  cases r with
  | none => exact stays_pure _
  | some code => exact stays_modifyDeviceId hF _

/-- Reading the identity polls, and assigns it. -/
theorem stays_identifyPort (h : Polls E) {port : Port} (hF : AssignsIds F port) :
    Stays E F (identifyPort port) := by
  refine (stays_tryReadData h).bind fun r => ?_
  cases r with
  | none => exact stays_pure _
  | some response =>
    refine (stays_modifyDeviceId hF _).bind fun _ => (stays_tryReadData h).bind fun r => ?_
    cases r with
    | none => exact stays_pure _
    | some response => exact stays_modifyDeviceId hF _

/-- The body of `reset_port` talks to the device and assigns its identity. -/
theorem stays_resetPortBody (h : Polls E) {port : Port} (hF : AssignsIds F port)
    (hd : Drives E port) (n : ℕ) : Stays E F (resetPortBody n port) := by
  have hdev : ∀ cmd, Stays E F (ps2SendDeviceCommand n cmd port) :=
    stays_ps2SendDeviceCommand h hd n
  refine (stays_onlyIf _ fun hp => stays_ps2SendCommand h (hd.select hp)).bind fun _ => ?_
  refine (stays_ps2SendData h (hd.write _)).bind fun _ => (stays_resetResponse h).bind fun r => ?_
  cases r with
  | none => exact (stays_modifyDeviceId hF _).bind fun _ => stays_println h _ _
  | some r =>
    obtain ⟨resp0, resp1, resp2⟩ := r
    refine stays_ite _ (stays_println h _ _) ?_
    exact (stays_reportReset h port resp0 resp1).bind fun _ =>
      (stays_modifyDeviceId hF _).bind fun _ =>
      (stays_onlyIf _ fun _ => stays_readSpecialCode h hF).bind fun _ =>
      (hdev _).bind fun _ => (hdev _).bind fun _ => (stays_identifyPort h hF).bind fun _ =>
      hdev _

/-- `reset_port` talks to the device and assigns its identity. -/
theorem stays_resetPort (h : Polls E) {port : Port} (hF : AssignsIds F port)
    (hc : Calls E (.resetPort port)) (hd : Drives E port) (n : ℕ) :
    Stays E F (resetPort n port) :=
  stays_procedure hc.enter (hc.leave _) (stays_resetPortBody h hF hd n)

/-- Calls that talk to the controller itself are in `E`, the commands apart. -/
structure Talks (E : Event → Prop) : Prop extends Polls E where
  write : ∀ data, E (.outb PORT_DATA data)
  readData : Calls E .readData
  getConfig : Calls E .getConfig
  setConfig : ∀ config, Calls E (.setConfig config)

/-- The exchanges with the controller raise no interrupt. -/
theorem talks_unraised : Talks Unraised where
  status _ := trivial
  data _ := trivial
  print _ _ := trivial
  write _ := trivial
  readData := ⟨trivial, fun _ => trivial⟩
  getConfig := ⟨trivial, fun _ => trivial⟩
  setConfig _ := ⟨trivial, fun _ => trivial⟩

theorem sends_unraised (command : Byte) : Sends Unraised command :=
  ⟨⟨trivial, fun _ => trivial⟩, trivial⟩

theorem drives_unraised (port : Port) : Drives Unraised port :=
  ⟨fun _ => sends_unraised _, fun _ => trivial, fun _ => ⟨trivial, fun _ => trivial⟩⟩

theorem Talks.stays_getConfig (h : Talks E) (hs : Sends E CMD_READ_RAM) :
    Stays E F ps2GetConfig :=
  stays_ps2GetConfig h.toPolls h.getConfig h.readData hs

theorem Talks.stays_setConfig (h : Talks E) (hs : Sends E CMD_WRITE_RAM) (config : Byte) :
    Stays E F (ps2SetConfig config) :=
  stays_ps2SetConfig h.toPolls (h.setConfig config) hs (h.write _)

/-- The commands before the self-test. -/
def disableCommands : List Byte :=
  [CMD_DISABLE_PORT_0, CMD_DISABLE_PORT_1, CMD_READ_RAM, CMD_WRITE_RAM]

/-- `ps2Disable` sends the commands listed. -/
theorem stays_ps2Disable (h : Talks E) (hs : ∀ c ∈ disableCommands, Sends E c) :
    Stays E F ps2Disable := by
  have hsend : ∀ c ∈ disableCommands, Stays E F (ps2SendCommand c) := fun c hc =>
    stays_ps2SendCommand h.toPolls (hs c hc)
  exact (hsend _ (by decide)).bind fun _ => (hsend _ (by decide)).bind fun _ =>
    (stays_readByte h.data).bind fun _ => (h.stays_getConfig (hs _ (by decide))).bind fun _ =>
    (h.stays_setConfig (hs _ (by decide)) _).bind fun _ => stays_pure _

/-- `ps2TestController` sends the commands listed. -/
theorem stays_ps2TestController (h : Talks E)
    (hs : ∀ c ∈ [CMD_TEST, CMD_READ_RAM, CMD_WRITE_RAM], Sends E c) (config : Byte) :
    Stays E F (ps2TestController config) := by
  refine (stays_ps2SendCommand h.toPolls (hs _ (by decide))).bind fun _ =>
    (stays_ps2ReadData h.toPolls h.readData).bind fun result => stays_ite _ ?_ ?_
  · exact (stays_println h.toPolls _ _).bind fun _ => stays_pure _
  · exact (h.stays_getConfig (hs _ (by decide))).bind fun _ =>
      (stays_onlyIf _ fun _ => h.stays_setConfig (hs _ (by decide)) _).bind fun _ => stays_pure _

/-- The commands up to the end of the self-test. -/
def beginCommands : List Byte := disableCommands ++ [CMD_TEST]

/-- Everything up to the end of the self-test. -/
theorem stays_begin (h : Talks E) (hs : ∀ c ∈ beginCommands, Sends E c) :
    Stays E F (ps2Disable >>= fun config => ps2TestController config) :=
  (stays_ps2Disable h fun c hc => hs c (List.mem_append_left _ hc)).bind fun config =>
    stays_ps2TestController h (fun c hc => hs c (by
      revert c
      decide)) config

/-- The device IDs are the same. -/
structure SameIds (p p' : Ps2Statics) : Prop where
  port0 : p'.port0Id = p.port0Id
  port1 : p'.port1Id = p.port1Id

/-- Any assignment to the other statics of `ps2.c` is along `F`. -/
def AssignsPs2 (F : Kernel → Kernel → Prop) : Prop :=
  ∀ k p, SameIds k.ps2 p → F k { k with ps2 := p }

/-- The commands that detect the second port. -/
def detectCommands : List Byte :=
  [CMD_ENABLE_PORT_1, CMD_READ_RAM, CMD_DISABLE_PORT_1, CMD_WRITE_RAM]

/-- `ps2DetectChannels` sends the commands listed, and assigns a flag. -/
theorem stays_ps2DetectChannels (h : Talks E) (hs : ∀ c ∈ detectCommands, Sends E c)
    (hF : AssignsPs2 F) : Stays E F ps2DetectChannels := by
  have hsend : ∀ c ∈ detectCommands, Stays E F (ps2SendCommand c) := fun c hc =>
    stays_ps2SendCommand h.toPolls (hs c hc)
  exact (hsend _ (by decide)).bind fun _ => (h.stays_getConfig (hs _ (by decide))).bind fun _ =>
    (stays_modifyPs2 fun k => hF k _ ⟨rfl, rfl⟩).bind fun _ => stays_getKernel.bind fun _ =>
    stays_onlyIf _ fun _ => (hsend _ (by decide)).bind fun _ =>
    h.stays_setConfig (hs _ (by decide)) _

/-- A port test sends its command, and assigns its flag. -/
theorem stays_testPort (h : Talks E) {command : Byte} (hs : Sends E command) (hF : AssignsPs2 F)
    {setFlag : Bool → Ps2Statics → Ps2Statics} (hflag : ∀ v p, SameIds p (setFlag v p))
    (text : String) : Stays E F (testPort command setFlag text) :=
  (stays_ps2SendCommand h.toPolls hs).bind fun _ =>
    (stays_ps2ReadData h.toPolls h.readData).bind fun _ =>
    (stays_modifyPs2 fun k => hF k _ (hflag _ _)).bind fun _ => stays_onlyIf _ fun _ =>
    (stays_printMessage (h.print _ rfl)).bind fun _ => stays_println h.toPolls _ _

/-- `ps2TestPorts` sends the commands listed, and assigns the flags. -/
theorem stays_ps2TestPorts (h : Talks E) (hs : ∀ c ∈ [CMD_TEST_PORT_0, CMD_TEST_PORT_1], Sends E c)
    (hF : AssignsPs2 F) : Stays E F ps2TestPorts := by
  have h0 : Stays E F testPort0 := by
    refine stays_testPort h (hs CMD_TEST_PORT_0 (by decide)) hF ?_ _
    exact fun _ _ => ⟨rfl, rfl⟩
  have h1 : Stays E F testPort1 := by
    refine stays_testPort h (hs CMD_TEST_PORT_1 (by decide)) hF ?_ _
    exact fun _ _ => ⟨rfl, rfl⟩
  exact h0.bind fun _ => stays_getKernel.bind fun _ => stays_onlyIf _ fun _ => h1

/-- `ps2EnableInterrupts` sends the commands listed. -/
theorem stays_ps2EnableInterrupts (h : Talks E)
    (hs : ∀ c ∈ [CMD_READ_RAM, CMD_WRITE_RAM], Sends E c) : Stays E F ps2EnableInterrupts :=
  (h.stays_getConfig (hs _ (by decide))).bind fun _ => stays_getKernel.bind fun _ =>
    h.stays_setConfig (hs _ (by decide)) _

/-- `ps2EnablePorts` sends the commands listed. -/
theorem stays_ps2EnablePorts (h : Polls E)
    (hs : ∀ c ∈ [CMD_ENABLE_PORT_0, CMD_ENABLE_PORT_1], Sends E c) : Stays E F ps2EnablePorts :=
  stays_getKernel.bind fun _ =>
    (stays_onlyIf _ fun _ => stays_ps2SendCommand h (hs _ (by decide))).bind fun _ =>
    stays_onlyIf _ fun _ => stays_ps2SendCommand h (hs _ (by decide))

/-! ### Events of the keyboard driver -/

/-- The commands of the keyboard driver and what they read are in `E`. -/
structure Exchanges (E : Event → Prop) : Prop extends Polls E where
  drives : ∀ port, Drives E port
  readData : Calls E .readData
  setScanCodes : Calls E (.kbdSetScanCodes .set1)

/-- What the keyboard driver does is in `E`, and its assignments are along `F`. -/
structure Types (E : Event → Prop) (F : Kernel → Kernel → Prop) : Prop extends Exchanges E where
  clearMask : Stays E F (irqClearMask PS2_KBD_IRQ)
  int : E (.int 0x21)
  kbd : ∀ k kbd, F k { k with kbd := kbd }
  idt : ∀ (L : Layout) v h k, F k { k with idt := idtInstallIrqHandler L v h k.idt }

/-- They raise no interrupt. -/
theorem exchanges_unraised : Exchanges Unraised where
  toPolls := talks_unraised.toPolls
  drives := drives_unraised
  readData := ⟨trivial, fun _ => trivial⟩
  setScanCodes := ⟨trivial, fun _ => trivial⟩

/-- `ps2_kbd_send_cmd` talks to the port of the keyboard. -/
theorem stays_ps2KbdSendCmd (h : Exchanges E) (n : ℕ) (cmd : Byte) :
    Stays E F (ps2KbdSendCmd n cmd) :=
  stays_getKernel.bind fun k => stays_ps2SendDeviceCommand h.toPolls (h.drives k.kbd.port) n cmd

/-- A round sends two commands and reads the set. -/
theorem stays_setScanCodesRound (h : Exchanges E) (n : ℕ) (set : ScanCodeSet) :
    Stays E F (setScanCodesRound n set) := by
  have hget : Stays E F (ps2KbdGetScanCode n) :=
    (stays_ps2KbdSendCmd h n _).bind fun _ =>
      (stays_ps2ReadData h.toPolls h.readData).bind fun _ => stays_pure _
  refine (stays_ps2KbdSendCmd h n _).bind fun _ =>
    (stays_ps2SendData h.toPolls ((h.drives .port0).write _)).bind fun _ => hget.bind fun newSet =>
    stays_ite _ ?_ (stays_pure _)
  exact (stays_println h.toPolls _ _).bind fun _ => stays_pure _

/-- `ps2_kbd_set_scan_codes` talks to the port of the keyboard. -/
theorem stays_ps2KbdSetScanCodes (h : Exchanges E) (n : ℕ) :
    Stays E F (ps2KbdSetScanCodes n .set1) := by
  induction n with
  | zero => exact stays_cut
  | succ n ih =>
    exact stays_procedure h.setScanCodes.enter (h.setScanCodes.leave _) <|
      (stays_setScanCodesRound h n _).bind fun wrong => stays_ite _ ih (stays_pure _)

/-- The start of the keyboard driver, its interrupt included. -/
theorem stays_ps2KbdStart (h : Types E F) (L : Layout) (n : ℕ) (port : Port) :
    Stays E F (ps2KbdStart L n port) := by
  have hprint : ∀ text, Stays E F (println text []) := fun text => stays_println h.toPolls text []
  exact (stays_println h.toPolls _ _).bind fun _ => (hprint _).bind fun _ =>
    h.clearMask.bind fun _ => (hprint _).bind fun _ =>
    (stays_ps2KbdSendCmd h.toExchanges n _).bind fun _ => (hprint _).bind fun _ =>
    (stays_ps2KbdSetScanCodes h.toExchanges n).bind fun _ => (hprint _).bind fun _ =>
    (stays_modifyKernel fun k => h.idt L _ _ k).bind fun _ => (hprint _).bind fun _ =>
    (stays_int h.int).bind fun _ => hprint _

/-- `ps2_kbd_init` starts the driver unless it has been started. -/
theorem stays_ps2KbdInit (h : Types E F) {port : Port} (hc : Calls E (.kbdInit port)) (L : Layout)
    (n : ℕ) : Stays E F (ps2KbdInit L n port) :=
  stays_procedure hc.enter (hc.leave _) <| stays_getKernel.bind fun _ =>
    stays_ite _ (stays_pure _) ((stays_modifyKernel fun k => h.kbd k _).bind fun _ =>
      stays_ps2KbdStart h L n port)

/-- Starting the driver of the device on `port` is in `E`. -/
structure Starts (E : Event → Prop) (port : Port) : Prop where
  reset : Calls E (.resetPort port)
  init : Calls E (.kbdInit port)
  report : ∀ text type, E (.print ⟨text, .white, .black, [.int (portNo port), .str type], true⟩)

/-- What follows for a port that is operational: its reset, and its driver. -/
theorem stays_ps2StartPort (h : Types E F) {port : Port} (hF : AssignsIds F port)
    (hs : Starts E port) (L : Layout) (n : ℕ) : Stays E F (ps2StartPort L n port) := by
  refine stays_getKernel.bind fun k => stays_ite _ ?_ (stays_modifyDeviceId hF _)
  refine (stays_resetPort h.toPolls hF hs.reset (h.drives port) n).bind fun _ =>
    stays_getKernel.bind fun k' => stays_ite _ ?_ ?_
  · exact stays_getKernel.bind fun _ => stays_println h.toPolls _ _
  · exact (stays_printMessage (hs.report _ _)).bind fun _ =>
      stays_ite _ (stays_ps2KbdInit h hs.init L n) (stays_pure _)

/-- **`ps2_init` talks to the controller and starts the drivers**, and does nothing else. -/
theorem stays_ps2Init (h : Types E F) (htalks : Talks E) (hsends : ∀ c, Sends E c)
    (hF : AssignsPs2 F) (hids : ∀ port, AssignsIds F port) (hstarts : ∀ port, Starts E port)
    (L : Layout) (n : ℕ) : Stays E F (ps2Init L n) := by
  have hs : ∀ cs : List Byte, ∀ c ∈ cs, Sends E c := fun _ c _ => hsends c
  have hstart : ∀ port, Stays E F (ps2StartPort L n port) := fun port =>
    stays_ps2StartPort h (hids port) (hstarts port) L n
  refine (stays_ps2Disable htalks (hs _)).bind fun config =>
    (stays_ps2TestController htalks (hs _) config).bind fun passed =>
    stays_ite _ ?_ (stays_pure _)
  refine (stays_ps2DetectChannels htalks (hs _) hF).bind fun _ =>
    (stays_ps2TestPorts htalks (hs _) hF).bind fun _ => stays_getKernel.bind fun k =>
    stays_ite _ (stays_println htalks.toPolls _ _) ?_
  exact (stays_ps2EnablePorts htalks.toPolls (hs _)).bind fun _ =>
    (stays_ps2EnableInterrupts htalks (hs _)).bind fun _ => (hstart _).bind fun _ => hstart _

/-! ### Termination -/

theorem cutFree_println (text : String) (args : List Arg) : CutFree (println text args) :=
  fun _ => trivial

/-- A wait of bounded length, if its polls are. -/
theorem cutFree_waitLoop {ready : Kern Bool} (h : CutFree ready) (n : ℕ) :
    CutFree (waitLoop ready n) := by
  induction n with
  | zero => exact h.bind fun _ => CutFree.ite _ trivial trivial
  | succ n ih => exact h.bind fun _ => CutFree.ite _ trivial ih

theorem cutFree_commandReady : CutFree commandReady := fun _ => trivial

theorem cutFree_responseReady : CutFree responseReady := fun _ => trivial

/-- Every wait of the driver ends. -/
theorem cutFree_ps2BufferWait : CutFree ps2BufferWait :=
  (cutFree_waitLoop cutFree_commandReady _).bind fun _ => trivial

theorem cutFree_responseWait : CutFree responseWait :=
  (cutFree_waitLoop cutFree_responseReady _).bind fun _ => trivial

theorem cutFree_readByte (port : Word) : CutFree (readByte port) := fun _ => trivial

theorem cutFree_writeByte (port : Word) (data : Byte) : CutFree (writeByte port data) :=
  fun _ => trivial

theorem cutFree_tryReadData : CutFree tryReadData :=
  cutFree_responseWait.bind fun _ =>
    CutFree.ite _ ((cutFree_readByte _).bind fun _ => trivial) trivial

/-- `ps2_read_data` is without a loop of unknown length. -/
theorem cutFree_ps2ReadData : CutFree ps2ReadData := by
  refine fun _ => (cutFree_tryReadData.bind fun r => ?_).bind fun _ => fun _ => trivial
  cases r with
  | some byte => trivial
  | none => exact fun _ => trivial

/-- `ps2_send_data` is without a loop of unknown length. -/
theorem cutFree_ps2SendData (data : Byte) : CutFree (ps2SendData data) :=
  cutFree_ps2BufferWait.bind fun _ =>
    CutFree.ite _ (cutFree_writeByte _ _) (cutFree_println _ _)

/-- `ps2_send_command` is without a loop of unknown length. -/
theorem cutFree_ps2SendCommand (command : Byte) : CutFree (ps2SendCommand command) :=
  fun _ => (cutFree_ps2BufferWait.bind fun _ =>
    CutFree.ite _ (cutFree_writeByte _ _) (cutFree_println _ _)).bind fun _ => fun _ => trivial

theorem cutFree_onlyIf (c : Prop) [Decidable c] {p : Kern Unit} (hp : CutFree p) :
    CutFree (onlyIf c p) :=
  CutFree.ite c hp trivial

/-- One attempt is without a loop of unknown length. -/
theorem cutFree_attemptCommand (cmd : Byte) (port : Port) : CutFree (attemptCommand cmd port) :=
  (cutFree_onlyIf _ (cutFree_ps2SendCommand _)).bind fun _ =>
    (cutFree_ps2SendData cmd).bind fun _ => cutFree_tryReadData

theorem cutFree_reportResponse (cmd : Byte) (port : Port) (resp : Option Byte) :
    CutFree (reportResponse cmd port resp) := by
  cases resp with
  | some resp => exact CutFree.ite _ trivial (cutFree_println _ _)
  | none => exact cutFree_println _ _

theorem cutFree_ps2GetConfig : CutFree ps2GetConfig :=
  fun _ => ((cutFree_ps2SendCommand _).bind fun _ => cutFree_ps2ReadData).bind
    fun _ => fun _ => trivial

theorem cutFree_ps2SetConfig (config : Byte) : CutFree (ps2SetConfig config) :=
  fun _ => ((cutFree_ps2SendCommand _).bind fun _ => cutFree_ps2SendData config).bind
    fun _ => fun _ => trivial

theorem cutFree_modifyDeviceId (port : Port) (f : Word → Word) :
    CutFree (modifyDeviceId port f) :=
  fun _ => trivial

theorem cutFree_resetResponse : CutFree resetResponse := by
  refine cutFree_tryReadData.bind fun r => ?_
  cases r with
  | none => trivial
  | some resp0 =>
    refine cutFree_tryReadData.bind fun r => ?_
    cases r with
    | none => trivial
    | some resp1 =>
      refine cutFree_tryReadData.bind fun r => ?_
      cases r <;> trivial

theorem cutFree_reportReset (port : Port) (resp0 resp1 : Byte) :
    CutFree (reportReset port resp0 resp1) :=
  CutFree.ite _ trivial (cutFree_println _ _)

theorem cutFree_readSpecialCode (port : Port) : CutFree (readSpecialCode port) := by
  refine cutFree_tryReadData.bind fun r => ?_
  cases r with
  | none => trivial
  | some code => exact fun _ => trivial

/-- Reading the identity is bounded. -/
theorem cutFree_identifyPort (port : Port) : CutFree (identifyPort port) := by
  refine cutFree_tryReadData.bind fun r => ?_
  cases r with
  | none => trivial
  | some response =>
    refine (cutFree_modifyDeviceId port _).bind fun _ => cutFree_tryReadData.bind fun r => ?_
    cases r with
    | none => trivial
    | some response => exact fun _ => trivial

/-- `ps2Disable` is without a loop of unknown length. -/
theorem cutFree_ps2Disable : CutFree ps2Disable :=
  (cutFree_ps2SendCommand _).bind fun _ => (cutFree_ps2SendCommand _).bind fun _ =>
    CutFree.bind (fun _ => trivial) fun _ => cutFree_ps2GetConfig.bind fun _ =>
    (cutFree_ps2SetConfig _).bind fun _ => trivial

/-- `ps2TestController` is without a loop of unknown length. -/
theorem cutFree_ps2TestController (config : Byte) : CutFree (ps2TestController config) := by
  refine (cutFree_ps2SendCommand _).bind fun _ => cutFree_ps2ReadData.bind fun result =>
    CutFree.ite _ (fun _ => trivial) ?_
  exact cutFree_ps2GetConfig.bind fun _ =>
    (cutFree_onlyIf _ (cutFree_ps2SetConfig _)).bind fun _ => trivial

/-- `ps2DetectChannels` is without a loop of unknown length. -/
theorem cutFree_ps2DetectChannels : CutFree ps2DetectChannels :=
  (cutFree_ps2SendCommand _).bind fun _ => cutFree_ps2GetConfig.bind fun _ =>
    CutFree.bind (fun _ => trivial) fun _ => CutFree.bind (fun _ => trivial) fun _ =>
    cutFree_onlyIf _ ((cutFree_ps2SendCommand _).bind fun _ => cutFree_ps2SetConfig _)

/-- A port test is bounded. -/
theorem cutFree_testPort (command : Byte) (setFlag : Bool → Ps2Statics → Ps2Statics)
    (text : String) : CutFree (testPort command setFlag text) :=
  (cutFree_ps2SendCommand _).bind fun _ => cutFree_ps2ReadData.bind fun _ =>
    CutFree.bind (fun _ => trivial) fun _ => cutFree_onlyIf _ (fun _ _ => trivial)

/-- `ps2TestPorts` is without a loop of unknown length. -/
theorem cutFree_ps2TestPorts : CutFree ps2TestPorts :=
  (cutFree_testPort _ _ _).bind fun _ => CutFree.bind (fun _ => trivial) fun _ =>
    cutFree_onlyIf _ (cutFree_testPort _ _ _)

/-- `ps2EnablePorts` is without a loop of unknown length. -/
theorem cutFree_ps2EnablePorts : CutFree ps2EnablePorts :=
  CutFree.bind (fun _ => trivial) fun _ =>
    (cutFree_onlyIf _ (cutFree_ps2SendCommand _)).bind fun _ =>
    cutFree_onlyIf _ (cutFree_ps2SendCommand _)

/-- `ps2EnableInterrupts` is without a loop of unknown length. -/
theorem cutFree_ps2EnableInterrupts : CutFree ps2EnableInterrupts :=
  cutFree_ps2GetConfig.bind fun _ => CutFree.bind (fun _ => trivial) fun _ =>
    cutFree_ps2SetConfig _

end Ps2
end DrewOS
