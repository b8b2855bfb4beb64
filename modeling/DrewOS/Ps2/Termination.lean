/-
# When the PS/2 initialisation returns

Every wait of `ps2.c` is bounded by `DEFAULT_WAIT`, so a call can only run on
for ever inside one of the two functions that call themselves as long as the
device's answer says so: `ps2_send_device_command`, which repeats a command that
the device asks to resend, and `ps2_kbd_set_scan_codes`, which repeats its
exchange while another scan code set is read back.

`Stops b` allows a call of these two where the device does not answer so for
ever.  It decides termination: the lemmas `decided_...` climb from the two
recursions to `ps2_init`, on a machine with any code behind the interrupt that
the keyboard driver raises.
-/

import DrewOS.Kernel.Trap
import DrewOS.Ps2.Waits

namespace DrewOS

open ByteMem Effect

/-- The streams when the answer to a device command is awaited. -/
def Streams.addressed (s : Streams) : Port → Streams
  | .port0 => s.await Ps2.inputEmpty
  | .port1 => (s.await Ps2.inputEmpty).await Ps2.inputEmpty

namespace Ps2

section Decided

variable {ε : Type} (b : Bus ε)

/-- From the call `ps2_send_device_command(cmd, port)` in `u` on, every attempt is
answered with a request to resend. -/
def ResendsForever (cmd : Byte) (port : Port) (u : World ε) : Prop :=
  Endless (machine b) (.enter (.sendDeviceCommand cmd port)) (fun _ => attemptCommand cmd port)
    (· = some RESP_RESEND) u

/-- From the call `ps2_kbd_set_scan_codes(set)` in `u` on, every round reads
another set back. -/
def WrongForever (set : ScanCodeSet) (u : World ε) : Prop :=
  Endless (machine b) (.enter (.kbdSetScanCodes set)) (fun n => setScanCodesRound n set)
    (· = true) u

/-- The operation is no call of the two recursive functions, or one that the
device lets end. -/
def Stops : Op → World ε → Prop
  | .enter (.sendDeviceCommand cmd port), u => ¬ ResendsForever b cmd port u
  | .enter (.kbdSetScanCodes set), u => ¬ WrongForever b set u
  | _, _ => True

/-- Not the mark of a call of a recursive function. -/
def Straight : Event → Prop
  | .enter (.sendDeviceCommand _ _) => False
  | .enter (.kbdSetScanCodes _) => False
  | _ => True

theorem talks_straight : Talks Straight where
  status _ := trivial
  data _ := trivial
  print _ _ := trivial
  write _ := trivial
  readData := ⟨trivial, fun _ => trivial⟩
  getConfig := ⟨trivial, fun _ => trivial⟩
  setConfig _ := ⟨trivial, fun _ => trivial⟩

theorem sends_straight (command : Byte) : Sends Straight command :=
  ⟨⟨trivial, fun _ => trivial⟩, trivial⟩

/-- Straight operations stand in front of no unbounded wait. -/
theorem stops_of_straight {o : Op} (h : o.Within Straight fun _ _ => True) (u : World ε) :
    Stops b o u := by
  cases o with
  | enter f =>
    cases f with
    | sendDeviceCommand cmd port => exact absurd h id
    | kbdSetScanCodes set => exact absurd h id
    | _ => trivial
  | _ => trivial

variable {b} {m : Machine io (World ε)} {trap : Kern Unit}

/-- Code without a call of the recursive functions. -/
theorem decided_straight {α : Type} {p : Kern α} (hc : CutFree p)
    (hs : Stays Straight (fun _ _ => True) p) : Decided m (Stops b) fun _ => p :=
  decided_of_always hc (Prog.Always.mono (fun _ ho u => stops_of_straight b ho u) hs)

theorem decided_println (text : String) (args : List Arg) :
    Decided m (Stops b) fun _ => println text args :=
  decided_straight (cutFree_println _ _) (stays_printMessage trivial)

theorem decided_modifyKernel (f : Kernel → Kernel) :
    Decided m (Stops b) fun _ => modifyKernel f :=
  decided_straight (fun _ => trivial) (stays_modifyKernel fun _ => trivial)

theorem decided_getKernel : Decided m (Stops b) fun _ => getKernel :=
  decided_straight (fun _ => trivial) stays_getKernel

/-- Reading a byte always stops. -/
theorem decided_ps2ReadData : Decided m (Stops b) fun _ => ps2ReadData :=
  decided_straight cutFree_ps2ReadData
    (stays_ps2ReadData talks_straight.toPolls ⟨trivial, fun _ => trivial⟩)

/-- Sending a byte always stops. -/
theorem decided_ps2SendData (data : Byte) :
    Decided m (Stops b) fun _ => ps2SendData data :=
  decided_straight (cutFree_ps2SendData data) (stays_ps2SendData talks_straight.toPolls trivial)

/-- A call of a function whose call is always allowed. -/
theorem decided_procedure {f : Fn} (hf : Straight (.enter f)) {P : ℕ → Kern Unit}
    (hP : Decided m (Stops b) P) :
    Decided m (Stops b) fun n => procedure f (P n) := by
  have henter : Decided m (Stops b) fun _ => enter f :=
    decided_straight (fun _ => trivial) ⟨hf, fun _ => trivial⟩
  have hleave : Decided m (Stops b) fun _ => leave f none :=
    decided_straight (fun _ => trivial) ⟨trivial, fun _ => trivial⟩
  exact henter.bind fun _ => hP.bind fun _ => hleave

/-! ### The two recursions -/

/-- A test of a fixed condition in front of a sequence. -/
theorem ite_bind {α β : Type} (c : Prop) [Decidable c] (p q : Kern α) (f : α → Kern β) :
    (if c then p else q) >>= f = if c then p >>= f else q >>= f := by
  split_ifs <;> rfl

/-- `ps2_send_device_command` tries again while the answer is a request to resend. -/
theorem retry_ps2SendDeviceCommand (cmd : Byte) (port : Port) :
    Retry (Op.enter (.sendDeviceCommand cmd port) : io.Op)
      (fun n => ps2SendDeviceCommand n cmd port) (fun _ => attemptCommand cmd port)
      (fun resp => resp = some RESP_RESEND)
      (fun _ resp => reportResponse cmd port resp >>= fun _ =>
        leave (.sendDeviceCommand cmd port) none)
      (fun _ => leave (.sendDeviceCommand cmd port) none) where
  zero := rfl
  succ n := by
    refine congrArg (Prog.ask _) (funext fun _ => (Prog.bind_bind _ _ _).trans ?_)
    exact congrArg _ (funext fun resp => ite_bind _ _ _ _)

/-- `ps2_send_device_command` stops unless its requests to resend go on for ever. -/
theorem decided_ps2SendDeviceCommand (cmd : Byte) (port : Port) :
    Decided (machine b) (Stops b) fun n => ps2SendDeviceCommand n cmd port := by
  have hleave : ∀ _ : Unit, Decided (machine b) (Stops b) fun _ =>
      leave (.sendDeviceCommand cmd port) none := fun _ =>
    decided_straight (fun _ => trivial) ⟨trivial, fun _ => trivial⟩
  have hattempt : Decided (machine b) (Stops b) fun _ => attemptCommand cmd port :=
    decided_straight (cutFree_attemptCommand cmd port)
      (stays_attemptCommand talks_straight.toPolls (fun _ => sends_straight _) trivial)
  have hreport : ∀ resp, Decided (machine b) (Stops b) fun _ =>
      reportResponse cmd port resp >>= fun _ => leave (.sendDeviceCommand cmd port) none :=
    fun resp => (decided_straight (cutFree_reportResponse cmd port resp)
      (stays_reportResponse talks_straight.toPolls cmd port resp)).bind hleave
  exact decided_retry (retry_ps2SendDeviceCommand cmd port) (fun u => Iff.rfl) hattempt hreport
    hleave

/-- `ps2_kbd_send_cmd` stops if its command does. -/
theorem decided_ps2KbdSendCmd (cmd : Byte) :
    Decided (machine b) (Stops b) fun n => ps2KbdSendCmd n cmd :=
  decided_getKernel.bind fun k => decided_ps2SendDeviceCommand cmd k.kbd.port

/-- A round of the exchange of scan code sets stops if its commands do. -/
theorem decided_setScanCodesRound (set : ScanCodeSet) :
    Decided (machine b) (Stops b) fun n => setScanCodesRound n set := by
  have hget : Decided (machine b) (Stops b) fun n => ps2KbdGetScanCode n :=
    (decided_ps2KbdSendCmd _).bind fun _ => decided_ps2ReadData.bind fun _ =>
      decided_straight trivial (stays_pure _)
  refine (decided_ps2KbdSendCmd _).bind fun _ => (decided_ps2SendData _).bind fun _ =>
    hget.bind fun newSet => Decided.ite _ ?_ ?_
  · exact (decided_println _ _).bind fun _ => decided_straight trivial (stays_pure true)
  · exact decided_straight trivial (stays_pure false)

/-- `ps2_kbd_set_scan_codes` goes round while another set is read back. -/
theorem retry_ps2KbdSetScanCodes (set : ScanCodeSet) :
    Retry (Op.enter (.kbdSetScanCodes set) : io.Op) (fun n => ps2KbdSetScanCodes n set)
      (fun n => setScanCodesRound n set) (fun wrong => wrong = true)
      (fun _ _ => leave (.kbdSetScanCodes set) none)
      (fun _ => leave (.kbdSetScanCodes set) none) where
  zero := rfl
  succ n := by
    refine congrArg (Prog.ask _) (funext fun _ => (Prog.bind_bind _ _ _).trans ?_)
    exact congrArg _ (funext fun wrong => ite_bind _ _ _ _)

/-- `ps2_kbd_set_scan_codes` stops unless its rounds go on for ever. -/
theorem decided_ps2KbdSetScanCodes (set : ScanCodeSet) :
    Decided (machine b) (Stops b) fun n => ps2KbdSetScanCodes n set := by
  have hleave : ∀ _ : Unit, Decided (machine b) (Stops b) fun _ =>
      leave (.kbdSetScanCodes set) none := fun _ =>
    decided_straight (fun _ => trivial) ⟨trivial, fun _ => trivial⟩
  exact decided_retry (retry_ps2KbdSetScanCodes set) (fun u => Iff.rfl)
    (decided_setScanCodesRound set) (fun _ => hleave ()) hleave

/-- Code that raises no interrupt is decided alike, whatever stands behind it. -/
theorem decided_trapping {α : Type} {D : Op → World ε → Prop} {P : ℕ → Kern α}
    (h : Decided (machine b) D P) (hP : ∀ n, Stays Unraised (fun _ _ => True) (P n)) :
    Decided (trapping b trap) D P :=
  h.agree hP (agree_trapping b trap)

/-! ### The functions above them -/

/-- Starting the keyboard driver stops if its exchange does. -/
theorem decided_ps2KbdStart (L : Layout) (port : Port) :
    Decided (trapping b trap) (Stops b) fun n => ps2KbdStart L n port := by
  have hclear : Decided (trapping b trap) (Stops b) fun _ => irqClearMask PS2_KBD_IRQ :=
    decided_straight (fun _ _ _ _ => trivial)
      (stays_irqClearMask trivial trivial (fun _ => trivial) fun _ => trivial)
  have hint : Decided (trapping b trap) (Stops b) fun _ => int 0x21 :=
    decided_straight (fun _ => trivial) (stays_int trivial)
  have hscan : Decided (trapping b trap) (Stops b) fun n => ps2KbdSendCmd n CMD_KEY_ENABLE_SCAN :=
    decided_trapping (decided_ps2KbdSendCmd _) fun n => stays_ps2KbdSendCmd exchanges_unraised n _
  have hset : Decided (trapping b trap) (Stops b) fun n => ps2KbdSetScanCodes n .set1 :=
    decided_trapping (decided_ps2KbdSetScanCodes .set1)
      (stays_ps2KbdSetScanCodes exchanges_unraised)
  exact (decided_println _ _).bind fun _ => (decided_println _ _).bind fun _ =>
    hclear.bind fun _ => (decided_println _ _).bind fun _ => hscan.bind fun _ =>
    (decided_println _ _).bind fun _ => hset.bind fun _ =>
    (decided_println _ _).bind fun _ => (decided_modifyKernel _).bind fun _ =>
    (decided_println _ _).bind fun _ => hint.bind fun _ => decided_println _ _

/-- `ps2_kbd_init` stops if starting the driver does. -/
theorem decided_ps2KbdInit (L : Layout) (port : Port) :
    Decided (trapping b trap) (Stops b) fun n => ps2KbdInit L n port :=
  decided_procedure (f := .kbdInit port) trivial (decided_getKernel.bind fun _ => Decided.ite _
    (decided_straight trivial (stays_pure ())) ((decided_modifyKernel _).bind fun _ =>
      decided_ps2KbdStart L port))

theorem assignsIds_true (port : Port) : AssignsIds (fun _ _ => True) port := by
  cases port <;> exact fun _ _ => trivial

theorem decided_modifyDeviceId (port : Port) (f : Word → Word) :
    Decided (trapping b trap) (Stops b) fun _ => modifyDeviceId port f :=
  decided_straight (cutFree_modifyDeviceId port f)
    (stays_modifyDeviceId (assignsIds_true port) f)

/-- A test stops if its body does. -/
theorem decided_onlyIf (c : Prop) [Decidable c] {p : Kern Unit}
    (hp : Decided (trapping b trap) (Stops b) fun _ => p) :
    Decided (trapping b trap) (Stops b) fun _ => onlyIf c p :=
  Decided.ite c hp (decided_straight trivial (stays_ret ()))

/-- The body of `reset_port` stops if its commands do. -/
theorem decided_resetPortBody (port : Port) :
    Decided (trapping b trap) (Stops b) fun n => resetPortBody n port := by
  have hselect : Decided (trapping b trap) (Stops b) fun _ =>
      ps2SendCommand CMD_WRITE_INPUT_PORT_1 :=
    decided_straight (cutFree_ps2SendCommand _)
      (stays_ps2SendCommand talks_straight.toPolls (sends_straight _))
  have hresponse : Decided (trapping b trap) (Stops b) fun _ => resetResponse :=
    decided_straight cutFree_resetResponse (stays_resetResponse talks_straight.toPolls)
  have hcode : Decided (trapping b trap) (Stops b) fun _ => readSpecialCode port :=
    decided_straight (cutFree_readSpecialCode port)
      (stays_readSpecialCode talks_straight.toPolls (assignsIds_true port))
  have hidentify : Decided (trapping b trap) (Stops b) fun _ => identifyPort port :=
    decided_straight (cutFree_identifyPort port)
      (stays_identifyPort talks_straight.toPolls (assignsIds_true port))
  have hcommand : ∀ cmd, Decided (trapping b trap) (Stops b) fun n =>
      ps2SendDeviceCommand n cmd port := fun cmd =>
    decided_trapping (decided_ps2SendDeviceCommand cmd port) fun n =>
      stays_ps2SendDeviceCommand talks_unraised.toPolls (drives_unraised port) n cmd
  refine (decided_onlyIf _ hselect).bind fun _ => (decided_ps2SendData _).bind fun _ =>
    hresponse.bind fun r => ?_
  cases r with
  | none => exact (decided_modifyDeviceId _ _).bind fun _ => decided_println _ _
  | some r =>
    obtain ⟨resp0, resp1, resp2⟩ := r
    have hreport : Decided (trapping b trap) (Stops b) fun _ => reportReset port resp0 resp1 :=
      decided_straight (cutFree_reportReset ..) (stays_reportReset talks_straight.toPolls ..)
    refine Decided.ite _ (decided_println _ _) ?_
    exact hreport.bind fun _ => (decided_modifyDeviceId _ _).bind fun _ =>
      (decided_onlyIf _ hcode).bind fun _ => (hcommand _).bind fun _ =>
      (hcommand _).bind fun _ => hidentify.bind fun _ => hcommand _

/-- More depth lets the reset of a port go further. -/
theorem growing_resetPort (port : Port) : Growing fun n => resetPort n port := by
  have h : Decided (trapping .silent (.ret ())) (Stops .silent) fun n => resetPort n port :=
    decided_procedure (f := .resetPort port) trivial (decided_resetPortBody port)
  exact h.growing

/-- `ps2_init_device` stops if starting its driver does. -/
theorem decided_ps2InitDevice (L : Layout) (deviceId : Word) (port : Port) :
    Decided (trapping b trap) (Stops b) fun n => ps2InitDevice L n deviceId port := by
  refine Decided.ite _ (decided_getKernel.bind fun _ => decided_println _ _) ?_
  refine (decided_println _ _).bind fun _ => Decided.ite _ (decided_ps2KbdInit L port) ?_
  exact decided_straight trivial (stays_pure ())

/-- Starting a port stops if its reset and its driver do. -/
theorem decided_ps2StartPort (L : Layout) (port : Port) :
    Decided (trapping b trap) (Stops b) fun n => ps2StartPort L n port := by
  refine decided_getKernel.bind fun k => Decided.ite _ ?_ (decided_modifyDeviceId _ _)
  have hreset : Decided (trapping b trap) (Stops b) fun n => resetPort n port :=
    decided_procedure (f := .resetPort port) trivial (decided_resetPortBody port)
  exact hreset.bind fun _ => decided_getKernel.bind fun k' =>
    decided_ps2InitDevice L _ port

/-- More fuel lets the start of a device go on. -/
theorem growing_ps2InitDevice (L : Layout) (deviceId : Word) (port : Port) :
    Growing fun n => ps2InitDevice L n deviceId port := by
  have h : Decided (trapping .silent (.ret ())) (Stops .silent) fun n =>
      ps2InitDevice L n deviceId port := decided_ps2InitDevice L deviceId port
  exact h.growing

/-- More fuel lets the start of a port go on. -/
theorem growing_ps2StartPort (L : Layout) (port : Port) :
    Growing fun n => ps2StartPort L n port := by
  have h : Decided (trapping .silent (.ret ())) (Stops .silent) fun n => ps2StartPort L n port :=
    decided_ps2StartPort L port
  exact h.growing

/-- Whether `ps2_init` stops is decided by the two unbounded waits of the driver. -/
theorem decided_ps2Init (L : Layout) :
    Decided (trapping b trap) (Stops b) fun n => ps2Init L n := by
  have hdisable : Decided (trapping b trap) (Stops b) fun _ => ps2Disable :=
    decided_straight cutFree_ps2Disable
      (stays_ps2Disable talks_straight fun c _ => sends_straight c)
  have htest : ∀ config, Decided (trapping b trap) (Stops b) fun _ => ps2TestController config :=
    fun config => decided_straight (cutFree_ps2TestController config)
      (stays_ps2TestController talks_straight (fun c _ => sends_straight c) config)
  have hdetect : Decided (trapping b trap) (Stops b) fun _ => ps2DetectChannels :=
    decided_straight cutFree_ps2DetectChannels
      (stays_ps2DetectChannels talks_straight (fun c _ => sends_straight c) fun _ _ _ => trivial)
  have hports : Decided (trapping b trap) (Stops b) fun _ => ps2TestPorts :=
    decided_straight cutFree_ps2TestPorts
      (stays_ps2TestPorts talks_straight (fun c _ => sends_straight c) fun _ _ _ => trivial)
  have henable : Decided (trapping b trap) (Stops b) fun _ => ps2EnablePorts :=
    decided_straight cutFree_ps2EnablePorts
      (stays_ps2EnablePorts talks_straight.toPolls fun c _ => sends_straight c)
  have hinterrupts : Decided (trapping b trap) (Stops b) fun _ => ps2EnableInterrupts :=
    decided_straight cutFree_ps2EnableInterrupts
      (stays_ps2EnableInterrupts talks_straight fun c _ => sends_straight c)
  refine hdisable.bind fun config => (htest config).bind fun passed => Decided.ite _ ?_
    (decided_straight trivial (stays_pure ()))
  refine hdetect.bind fun _ => hports.bind fun _ => decided_getKernel.bind fun k =>
    Decided.ite _ (decided_println _ _) ?_
  exact henable.bind fun _ => hinterrupts.bind fun _ => (decided_ps2StartPort L .port0).bind
    fun _ => decided_ps2StartPort L .port1

/-- On the machine that only logs the interrupt. -/
theorem decided_ps2Init_logged (L : Layout) :
    Decided (machine b) (Stops b) fun n => ps2Init L n := by
  rw [← trapping_ret]
  exact decided_ps2Init L

end Decided

/-- One attempt of a device command. -/
theorem run_attemptCommand (cmd : Byte) (port : Port) (w : World Streams) :
    ∃ t, (attemptCommand cmd port).run (machine streamBus) w =
        (some (w.bus.addressed port).received, t) ∧
      t.bus = (w.bus.addressed port).receive := by
  have hlast : ∀ v : World Streams, ∃ t,
      (ps2SendData cmd >>= fun _ => tryReadData).run (machine streamBus) v =
        (some (v.bus.await inputEmpty).received, t) ∧
      t.bus = (v.bus.await inputEmpty).receive := by
    intro v
    obtain ⟨t, hrun, ht⟩ := run_ps2SendData cmd v
    obtain ⟨u, hrun', hu⟩ := run_tryReadData t
    rw [ht.bus] at hrun' hu
    exact ⟨u, (Prog.run_bind_of_some _ hrun).trans hrun', hu.bus⟩
  cases port with
  | port0 => exact hlast w
  | port1 =>
    obtain ⟨v, hrun, hv⟩ := run_ps2SendCommand CMD_WRITE_INPUT_PORT_1 w
    obtain ⟨t, hrun', ht⟩ := hlast v
    rw [hv.bus] at hrun' ht
    exact ⟨t, (Prog.run_bind_of_some _ hrun).trans hrun', ht⟩

/-- **A device command that is repeated for ever**, in terms of the answers: at
every attempt the device's byte comes in time and asks to resend. -/
theorem resendsForever_iff (cmd : Byte) (port : Port) (u : World Streams) :
    ResendsForever streamBus cmd port u ↔ ∀ k,
      (((fun s => (s.addressed port).receive)^[k] u.bus).addressed port).received =
        some RESP_RESEND := by
  refine endless_iff_iterate (growing_const _) World.bus _
    (fun s : Streams => (s.addressed port).received = some RESP_RESEND) fun u => ?_
  obtain ⟨t, hrun, ht⟩ := run_attemptCommand cmd port (u.say (.enter (.sendDeviceCommand cmd port)))
  exact ⟨_, t, ⟨0, hrun⟩, Iff.rfl, ht⟩

/-- A controller that is always ready and passes its tests, with a device on port
0 that answers its reset, and every command after it with a request to resend. -/
def resending : Streams where
  status := .const 0x01
  data := [0x00, 0x00, 0x55, 0x01, 0x20, 0x00, 0x00, 0xfa, 0xaa, 0x00] ++ₛ .const 0xfe
  other := .const 0
  words := .const 0

end Ps2
end DrewOS
