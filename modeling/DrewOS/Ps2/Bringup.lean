/-
# The initialisation on a prompt machine

A `Bench` says what a controller that passes its self-test answers, what the two ports
answer to their tests, and how the devices behind them behave: any configuration bytes,
any outcome of the tests, one port or two, any devices that answer their reset, and any
number of requests to resend.  Its answers make one session (`Bench.session`), which
`ps2_init` holds on every such machine, without a wait that fails, and the statics it
leaves are those of the bench (`ps2Init_bench`).
-/

import DrewOS.Ps2.Session

namespace DrewOS

open ByteMem Effect

namespace Ps2

variable {k : Kernel} {port : Port} {eip : Dword}

/-! ### The reset of a port -/

/-- The assignment of one identity. -/
def OnlyId (port : Port) (k k' : Kernel) : Prop :=
  ∃ id, k' = { k with ps2 := Ps2Statics.withId k.ps2 id port }

theorem assignsIds_onlyId (port : Port) : AssignsIds (OnlyId port) port := by
  cases port <;> exact fun k id => ⟨id, rfl⟩

theorem OnlyId.refl (k : Kernel) : OnlyId port k k := by
  cases port
  · exact ⟨k.ps2.port0Id, rfl⟩
  · exact ⟨k.ps2.port1Id, rfl⟩

/-- Two assignments of the identity, one behind the other. -/
theorem OnlyId.trans (k k' k'' : Kernel) : OnlyId port k k' → OnlyId port k' k'' →
    OnlyId port k k'' := by
  rintro ⟨id, rfl⟩ ⟨id', rfl⟩
  cases port <;> exact ⟨id', rfl⟩

/-- A conversation is all on the wire. -/
theorem wire_conversation (D : Device) (port : Port) :
    wire (D.conversation port) = D.conversation port := by
  have hspecial : wire (D.special.toList.map (Event.inb PORT_DATA)) =
      D.special.toList.map (Event.inb PORT_DATA) := by
    cases D.special <;> rfl
  rw [Device.conversation, Device.resetTalk, Device.identifyTalk]
  simp only [wire_append, wire_toDevice, wire_commandTalk, hspecial]
  rfl

/-- **A reset**, and what it leaves in the statics. -/
theorem converses_resetPort (D : Device) :
    Converses eip k (fun n => resetPort n port) (D.conversation port) ()
      { k with ps2 := Ps2Statics.withId k.ps2 D.identity port } := by
  refine (speaks_resetPort D).converses (wire_conversation D port) OnlyId.refl OnlyId.trans
    (fun n => stays_resetPort talks_unraised.toPolls (assignsIds_onlyId port)
      ⟨trivial, fun _ => trivial⟩ (drives_unraised port) n) ?_
  rintro _ ⟨id, rfl⟩ hid
  have hid' : id = D.identity := by
    cases port <;> exact hid
  rw [hid']

/-! ### The keyboard driver -/

/-- A round of `ps2_kbd_set_scan_codes`: the requests to resend its two commands, and the
byte that is read for the set. -/
structure SetRound where
  k1 : ℕ
  k2 : ℕ
  answer : Byte

/-- The round on the wire.  The argument is sent without its port. -/
def SetRound.talk (port : Port) (s : SetRound) : List Event :=
  commandTalk port CMD_SET_SCAN_CODE s.k1 ++ ([.outb PORT_DATA (getScanCodeSetId .set1)] ++
    (commandTalk port CMD_GET_SCAN_CODE s.k2 ++ [.inb PORT_DATA s.answer]))

/-- How a keyboard answers the driver: the requests to resend the command that enables
scanning, the rounds in which another set is read back, and the last one. -/
structure Typing where
  scan : ℕ
  wrong : List SetRound
  wrong_answer : ∀ s ∈ wrong, getScanCodeSet s.answer ≠ .set1
  last : SetRound
  last_answer : getScanCodeSet last.answer = .set1

/-- The rounds on the wire. -/
def roundsTalk (port : Port) (wrong : List SetRound) (last : SetRound) : List Event :=
  wrong.flatMap (SetRound.talk port) ++ last.talk port

def Typing.talk (T : Typing) (port : Port) : List Event :=
  commandTalk port CMD_KEY_ENABLE_SCAN T.scan ++ roundsTalk port T.wrong T.last

/-- `ps2_kbd_send_cmd` converses as `ps2_send_device_command` does. -/
theorem converses_ps2KbdSendCmd (hport : k.kbd.port = port) (cmd : Byte) (m : ℕ) :
    Converses eip k (fun n => ps2KbdSendCmd n cmd) (commandTalk port cmd m) () k := by
  subst hport
  exact converses_getKernel.bind (converses_command cmd m)

/-- One round, and whether another follows. -/
theorem converses_setScanCodesRound (hport : k.kbd.port = port) (s : SetRound) :
    Converses eip k (fun n => setScanCodesRound n .set1) (s.talk port)
      (decide (getScanCodeSet s.answer ≠ .set1)) k := by
  have hread : Converses eip k (fun _ => ps2ReadData >>= fun id => pure (getScanCodeSet id))
      ([.inb PORT_DATA s.answer] ++ []) (getScanCodeSet s.answer) k :=
    (converses_ps2ReadData s.answer).bind (converses_ret _)
  have hget : Converses eip k (fun n => ps2KbdGetScanCode n)
      (commandTalk port CMD_GET_SCAN_CODE s.k2 ++ ([.inb PORT_DATA s.answer] ++ []))
      (getScanCodeSet s.answer) k :=
    (converses_ps2KbdSendCmd hport _ s.k2).bind hread
  have hreport : ∀ newSet : ScanCodeSet, Converses eip k (fun _ =>
      if newSet ≠ .set1 then println
          "ps2_kbd_get_scan_code() gives scan code %d but expected %d..."
          [byteArg (getScanCodeSetId newSet), byteArg (getScanCodeSetId .set1)] >>= fun _ =>
        pure true
      else pure false) [] (decide (newSet ≠ .set1)) k := by
    intro newSet
    by_cases h : newSet = .set1
    · simp only [h, ne_eq, not_true_eq_false, if_false, decide_false]
      exact converses_ret false
    · simp only [h, ne_eq, not_false_eq_true, if_true, decide_true]
      exact ((converses_println _ _).bind (converses_ret true)).congr rfl
  unfold setScanCodesRound
  refine Converses.congr ((converses_ps2KbdSendCmd hport CMD_SET_SCAN_CODE s.k1).bind
    ((converses_ps2SendData _).bind (hget.bind (hreport _)))) ?_
  rw [SetRound.talk, List.append_nil, List.append_nil]

/-- **The exchange of scan code sets**, by induction on the rounds that read another set. -/
theorem converses_ps2KbdSetScanCodes (hport : k.kbd.port = port) (wrong : List SetRound)
    (hwrong : ∀ s ∈ wrong, getScanCodeSet s.answer ≠ .set1) (last : SetRound)
    (hlast : getScanCodeSet last.answer = .set1) :
    Converses eip k (fun n => ps2KbdSetScanCodes n .set1) (roundsTalk port wrong last) () k := by
  -- what follows a round, by its result
  have hround : ∀ (s : SetRound) (l : List Event), Converses eip k
      (fun n => if decide (getScanCodeSet s.answer ≠ .set1) = true then
        ps2KbdSetScanCodes n .set1 else pure ()) l () k →
      Converses eip k (fun n => ps2KbdSetScanCodes n .set1) (s.talk port ++ l) () k := by
    intro s l hl
    exact Converses.of_succ (Converses.procedure ((converses_setScanCodesRound hport s).bind hl))
  induction wrong with
  | nil =>
    refine (hround last [] ?_).congr (List.append_nil _)
    simp only [hlast, ne_eq, not_true_eq_false, decide_false, Bool.false_eq_true, if_false]
    exact converses_ret ()
  | cons s wrong ih =>
    have hs : getScanCodeSet s.answer ≠ .set1 := hwrong s List.mem_cons_self
    refine (hround s (roundsTalk port wrong last) ?_).congr ?_
    · simp only [hs, ne_eq, not_false_eq_true, decide_true, if_true]
      exact ih fun r hr => hwrong r (List.mem_cons_of_mem _ hr)
    · rw [roundsTalk, roundsTalk, List.flatMap_cons, List.append_assoc]

/-- The statics of a keyboard driver that has been started for the port. -/
def driven (L : Layout) (port : Port) (k : Kernel) : Kernel :=
  { k with
    kbd := ⟨picGetVector k.pic PS2_KBD_IRQ, port⟩
    idt := idtInstallIrqHandler L (picGetVector k.pic PS2_KBD_IRQ) (L.ptr .ps2KbdIrqHandler)
      k.idt }

/-- The mask of a line is cleared, which is nothing on the wire. -/
theorem converses_irqClearMask : Converses eip k (fun _ => irqClearMask PS2_KBD_IRQ) [] () k := by
  refine converses_quiet fun w hw => ⟨_, rfl, rfl, rfl, ?_, hw⟩
  show wire (w.log ++ [_] ++ [_] ++ [_] ++ [_]) = wire w.log
  simp only [wire_append, List.append_assoc]
  exact List.append_nil _

/-- **The keyboard driver.** -/
theorem converses_ps2KbdStart (L : Layout) (hnull : k.idt.NullAt eip) (hport : k.kbd.port = port)
    (T : Typing) :
    Converses eip k (fun n => ps2KbdStart L n port) (T.talk port) ()
      { k with idt := idtInstallIrqHandler L k.kbd.vector (L.ptr .ps2KbdIrqHandler) k.idt } := by
  have hprint : ∀ {k : Kernel} text args, Converses eip k (fun _ => println text args) [] () k :=
    fun text args => converses_println text args
  have hrounds : Converses eip k (fun n => ps2KbdSetScanCodes n .set1)
      (roundsTalk port T.wrong T.last) () k :=
    converses_ps2KbdSetScanCodes hport T.wrong T.wrong_answer T.last T.last_answer
  -- the handler is installed, which leaves what lies behind the table
  set installed := idtInstallIrqHandler L k.kbd.vector (L.ptr .ps2KbdIrqHandler) k.idt
  have hint : Converses eip { k with idt := installed } (fun _ => int 0x21) [] ()
      { k with idt := installed } :=
    converses_int (k := { k with idt := installed }) (hnull.congr (u := installed) rfl) 0x21
  unfold ps2KbdStart
  refine Converses.congr ((hprint _ _).bind ((hprint _ _).bind (converses_irqClearMask.bind
    ((hprint _ _).bind ((converses_ps2KbdSendCmd hport CMD_KEY_ENABLE_SCAN T.scan).bind
    ((hprint _ _).bind (hrounds.bind ((hprint _ _).bind ((converses_modifyKernel _).bind
    ((hprint _ _).bind (hint.bind (hprint _ _)))))))))))) ?_
  simp only [List.append_nil, List.nil_append, Typing.talk]

/-- What the body says where it is run, the test says. -/
theorem converses_onlyIf (c : Prop) [Decidable c] {p : Kern Unit} {l : List Event}
    {k' : Kernel} (hp : c → Converses eip k (fun _ => p) l () k') :
    Converses eip k (fun _ => onlyIf c p) (if c then l else []) () (if c then k' else k) := by
  unfold onlyIf
  split_ifs with h
  · exact hp h
  · exact converses_ret ()

/-- The same for a body that assigns nothing. -/
theorem converses_onlyIf_same (c : Prop) [Decidable c] {p : Kern Unit} {l : List Event}
    (hp : c → Converses eip k (fun _ => p) l () k) :
    Converses eip k (fun _ => onlyIf c p) (if c then l else []) () k := by
  have h := converses_onlyIf c hp
  rwa [ite_self] at h

/-- What the driver says of a session with the device on the port. -/
def initTalk (T : Typing) (port : Port) (deviceId : Word) (k : Kernel) : List Event :=
  if getDeviceKind (getDeviceType deviceId) = .keyboard ∧ k.kbd.vector = 0 then T.talk port else []

/-- The statics after `ps2_init_device`. -/
def initialised (L : Layout) (port : Port) (deviceId : Word) (k : Kernel) : Kernel :=
  if getDeviceKind (getDeviceType deviceId) = .keyboard ∧ k.kbd.vector = 0 then driven L port k
  else k

/-- The driver that `ps2_init_device` starts. -/
theorem converses_ps2InitDevice (L : Layout) (hnull : k.idt.NullAt eip) (T : Typing)
    (deviceId : Word) :
    Converses eip k (fun n => ps2InitDevice L n deviceId port) (initTalk T port deviceId k) ()
      (initialised L port deviceId k) := by
  have hunknown : getDeviceKind .devUnknown ≠ .keyboard := by decide
  unfold ps2InitDevice initTalk initialised
  by_cases htype : getDeviceType deviceId = .devUnknown
  · simp only [htype, if_true, hunknown, false_and, if_false]
    exact converses_getKernel.bind (converses_println _ _)
  · simp only [htype, if_false]
    refine Converses.congr ((converses_println _ _).bind ?_) (List.nil_append _)
    by_cases hkind : getDeviceKind (getDeviceType deviceId) = .keyboard
    · simp only [hkind, if_true, true_and]
      unfold ps2KbdInit
      refine Converses.procedure (Converses.congr (converses_getKernel.bind ?_)
        (List.nil_append _))
      by_cases hvector : k.kbd.vector = 0
      · simp only [hvector, ne_eq, not_true_eq_false, if_false, if_true]
        refine Converses.congr ((converses_modifyKernel _).bind ?_) (List.nil_append _)
        refine converses_ps2KbdStart L ?_ rfl T
        exact hnull
      · simp only [hvector, ne_eq, not_false_eq_true, if_true, if_false]
        exact converses_ret ()
    · simp only [hkind, if_false, false_and]
      exact converses_ret ()

/-! ### The bench -/

/-- What the controller and the devices answer. -/
structure Bench where
  /-- What stands in the buffer when it is flushed. -/
  stray : Byte
  /-- The configuration at first, after the self-test, with port 1 enabled, and at the end. -/
  config : Byte
  tested : Byte
  detected : Byte
  final : Byte
  /-- The results of the port tests. -/
  test0 : Byte
  test1 : Byte
  device : Port → Device
  typing : Port → Typing

/-- A command and the byte that answers it. -/
def askTalk (command answer : Byte) : List Event :=
  [.outb PORT_COMMAND command, .inb PORT_DATA answer]

/-- A configuration byte that is written. -/
def setTalk (config : Byte) : List Event :=
  [.outb PORT_COMMAND CMD_WRITE_RAM, .outb PORT_DATA config]

/-- The commands before the flush. -/
def disableTalk : List Event :=
  [.outb PORT_COMMAND CMD_DISABLE_PORT_0, .outb PORT_COMMAND CMD_DISABLE_PORT_1]

namespace Bench

variable (B : Bench)

/-- Is there a second port? -/
def dual : Bool := !B.detected.getLsbD CLOCK_1

/-- The self-test and the configuration around it. -/
def selfTest : List Event :=
  askTalk CMD_READ_RAM B.config ++ (setTalk (initialConfig B.config) ++ (askTalk CMD_TEST 0x55 ++
    (askTalk CMD_READ_RAM B.tested ++
      if B.tested ≠ initialConfig B.config then setTalk (initialConfig B.config) else [])))

/-- The second port is looked for. -/
def detect : List Event :=
  [.outb PORT_COMMAND CMD_ENABLE_PORT_1] ++ (askTalk CMD_READ_RAM B.detected ++
    if B.dual = true then [.outb PORT_COMMAND CMD_DISABLE_PORT_1] ++
      setTalk (putBit (putBit B.detected PORT_1_INTERRUPT false) CLOCK_1 false)
    else [])

/-- The ports are tested. -/
def tests : List Event :=
  askTalk CMD_TEST_PORT_0 B.test0 ++ if B.dual = true then askTalk CMD_TEST_PORT_1 B.test1 else []

/-- What the tests leave in the statics. -/
def found (p : Ps2Statics) : Ps2Statics :=
  { p with
    dualChannel := B.dual
    port0Operational := B.test0 == 0
    port1Operational := if B.dual = true then B.test1 == 0 else p.port1Operational }

/-- The ports that work are enabled, and their interrupts. -/
def enable (p : Ps2Statics) : List Event :=
  (if p.port0Operational = true then [.outb PORT_COMMAND CMD_ENABLE_PORT_0] else []) ++
  ((if p.port1Operational = true then [.outb PORT_COMMAND CMD_ENABLE_PORT_1] else []) ++
  (askTalk CMD_READ_RAM B.final ++
    let config := if p.port0Operational then putBit B.final PORT_0_INTERRUPT true else B.final
    setTalk (if p.port1Operational then putBit config PORT_1_INTERRUPT true else config)))

/-- The device of a port is reset and its driver started. -/
def start (port : Port) (k : Kernel) : List Event :=
  if Ps2Statics.operational k.ps2 port = true then
    (B.device port).conversation port ++ initTalk (B.typing port) port (B.device port).identity k
  else []

/-- The statics after that. -/
def started (L : Layout) (port : Port) (k : Kernel) : Kernel :=
  if Ps2Statics.operational k.ps2 port = true then
    initialised L port (B.device port).identity
      { k with ps2 := Ps2Statics.withId k.ps2 (B.device port).identity port }
  else { k with ps2 := Ps2Statics.withId k.ps2 0 port }

/-- No port works. -/
def Useless (p : Ps2Statics) : Prop :=
  (!p.port0Operational && (!p.dualChannel || !p.port1Operational)) = true

instance (p : Ps2Statics) : Decidable (Useless p) := inferInstanceAs (Decidable (_ = true))

/-- What is said once the ports have been tested. -/
def drivers (L : Layout) (k : Kernel) : List Event :=
  if Useless k.ps2 then []
  else B.enable k.ps2 ++ (B.start .port0 k ++ B.start .port1 (B.started L .port0 k))

/-- The statics that `ps2_init` leaves. -/
def statics (L : Layout) (k : Kernel) : Kernel :=
  let k := { k with ps2 := B.found k.ps2 }
  if Useless k.ps2 then k else B.started L .port1 (B.started L .port0 k)

/-- **The session**, from the flush on. -/
def session (L : Layout) (k : Kernel) : List Event :=
  B.selfTest ++ (B.detect ++ (B.tests ++ B.drivers L { k with ps2 := B.found k.ps2 }))

end Bench

variable (B : Bench)

/-- The self-test: its answer, and the configuration behind it where that has been lost. -/
theorem converses_ps2TestController :
    Converses eip k (fun _ => ps2TestController (initialConfig B.config))
      (askTalk CMD_TEST 0x55 ++ (askTalk CMD_READ_RAM B.tested ++
        if B.tested ≠ initialConfig B.config then setTalk (initialConfig B.config) else []))
      true k := by
  unfold ps2TestController
  refine Converses.congr ((converses_ps2SendCommand CMD_TEST).bind
    ((converses_ps2ReadData 0x55).bind ((converses_ps2GetConfig B.tested).bind
      ((converses_onlyIf_same _ fun _ => converses_ps2SetConfig (initialConfig B.config)).bind
        (converses_ret true))))) ?_
  simp only [List.append_nil]
  rfl

/-- The channels are those of the bench. -/
theorem converses_ps2DetectChannels :
    Converses eip k (fun _ => ps2DetectChannels) B.detect ()
      { k with ps2 := { k.ps2 with dualChannel := B.dual } } := by
  unfold ps2DetectChannels
  refine Converses.congr ((converses_ps2SendCommand CMD_ENABLE_PORT_1).bind
    ((converses_ps2GetConfig B.detected).bind ((converses_modifyKernel _).bind
      (converses_getKernel.bind (converses_onlyIf_same _ fun _ =>
        (converses_ps2SendCommand CMD_DISABLE_PORT_1).bind (converses_ps2SetConfig _)))))) ?_
  rfl

/-- One port test, with the answer of the bench. -/
theorem converses_testPort (command answer : Byte)
    (setFlag : Bool → Ps2Statics → Ps2Statics) (text : String) :
    Converses eip k (fun _ => testPort command setFlag text) (askTalk command answer) ()
      { k with ps2 := setFlag (answer == 0) k.ps2 } := by
  unfold testPort
  refine Converses.congr ((converses_ps2SendCommand command).bind
    ((converses_ps2ReadData answer).bind ((converses_modifyKernel _).bind
      (converses_onlyIf_same _ fun _ =>
        (converses_printMessage _).bind (converses_println _ _))))) ?_
  rw [List.append_nil, ite_self]
  rfl

/-- The flags of both ports are those of the bench. -/
theorem converses_ps2TestPorts (hdual : k.ps2.dualChannel = B.dual) :
    Converses eip k (fun _ => ps2TestPorts) B.tests () { k with ps2 := B.found k.ps2 } := by
  have hsecond : ∀ k' : Kernel, k'.ps2.dualChannel = B.dual →
      Converses eip k' (fun _ => onlyIf (k'.ps2.dualChannel = true) testPort1)
        (if B.dual = true then askTalk CMD_TEST_PORT_1 B.test1 else []) ()
        { k' with ps2 := { k'.ps2 with
          port1Operational := if B.dual = true then B.test1 == 0
            else k'.ps2.port1Operational } } := by
    rintro k' h
    rw [h, onlyIf]
    split_ifs
    · exact converses_testPort CMD_TEST_PORT_1 B.test1 _ _
    · exact converses_ret ()
  have hfound : B.found k.ps2 = { k.ps2 with
      port0Operational := B.test0 == 0
      port1Operational := if B.dual = true then B.test1 == 0 else k.ps2.port1Operational } := by
    rw [Bench.found, ← hdual]
  rw [hfound]
  unfold ps2TestPorts
  exact (converses_testPort CMD_TEST_PORT_0 B.test0 _ _).bind
    (converses_getKernel.bind (hsecond _ hdual))

/-- The commands that enable the operational ports. -/
theorem converses_ps2EnablePorts :
    Converses eip k (fun _ => ps2EnablePorts)
      ((if k.ps2.port0Operational = true then [.outb PORT_COMMAND CMD_ENABLE_PORT_0] else []) ++
        if k.ps2.port1Operational = true then [.outb PORT_COMMAND CMD_ENABLE_PORT_1] else [])
      () k := by
  unfold ps2EnablePorts
  exact converses_getKernel.bind ((converses_onlyIf_same _ fun _ => converses_ps2SendCommand _).bind
    (converses_onlyIf_same _ fun _ => converses_ps2SendCommand _))

/-- The interrupts of the operational ports are set in the configuration. -/
theorem converses_ps2EnableInterrupts :
    Converses eip k (fun _ => ps2EnableInterrupts) (askTalk CMD_READ_RAM B.final ++
      let config := if k.ps2.port0Operational then putBit B.final PORT_0_INTERRUPT true else B.final
      setTalk (if k.ps2.port1Operational then putBit config PORT_1_INTERRUPT true else config))
      () k := by
  unfold ps2EnableInterrupts
  exact (converses_ps2GetConfig B.final).bind (converses_getKernel.bind (converses_ps2SetConfig _))

/-- A port that is operational is started as its device wants it. -/
theorem converses_ps2StartPort (L : Layout) (hnull : k.idt.NullAt eip) :
    Converses eip k (fun n => ps2StartPort L n port) (B.start port k) () (B.started L port k) := by
  unfold ps2StartPort Bench.start Bench.started
  refine Converses.congr (converses_getKernel.bind ?_) (List.nil_append _)
  split_ifs with hport
  · have hid : Ps2Statics.deviceId (Ps2Statics.withId k.ps2 (B.device port).identity port) port =
        (B.device port).identity := by
      cases port <;> rfl
    refine Converses.congr ((converses_resetPort (B.device port)).bind
      (converses_getKernel.bind ?_)) (congrArg _ (List.nil_append _))
    simp only [hid]
    refine converses_ps2InitDevice L ?_ (B.typing port) _
    exact hnull
  · cases port <;> exact converses_modifyKernel _

/-- Lines 494-600: what follows the flush. -/
def flushed (L : Layout) (n : ℕ) : Kern Unit := do
  let config ← ps2GetConfig
  ps2SetConfig (initialConfig config)
  if ← ps2TestController (initialConfig config) then
    ps2DetectChannels
    ps2TestPorts
    let k ← getKernel
    if !k.ps2.port0Operational && (!k.ps2.dualChannel || !k.ps2.port1Operational) then
      println "No PS/2 ports are operational. PS/2 driver will be disabled." []
    else
      ps2EnablePorts
      ps2EnableInterrupts
      ps2StartPort L n .port0
      ps2StartPort L n .port1
  else
    return ()

/-- The beginning of `ps2_init`, and what follows its flush. -/
theorem ps2Init_eq (L : Layout) (n : ℕ) : ps2Init L n =
    (ps2SendCommand CMD_DISABLE_PORT_0 >>= fun _ => ps2SendCommand CMD_DISABLE_PORT_1) >>= fun _ =>
      readByte PORT_DATA >>= fun _ => flushed L n := by
  unfold ps2Init ps2Disable flushed
  simp only [Prog.bind_bind]
  rfl

/-- What lies behind the table of the handlers is not assigned. -/
theorem past_started (L : Layout) (port : Port) (k : Kernel) :
    (B.started L port k).idt.pastHandlers = k.idt.pastHandlers := by
  unfold Bench.started initialised driven
  split_ifs <;> rfl

/-- The drivers, once the ports have been tested. -/
theorem converses_drivers (L : Layout) (hnull : k.idt.NullAt eip) :
    Converses eip k (fun n => if (!k.ps2.port0Operational &&
        (!k.ps2.dualChannel || !k.ps2.port1Operational)) = true then
        println "No PS/2 ports are operational. PS/2 driver will be disabled." []
      else ps2EnablePorts >>= fun _ => ps2EnableInterrupts >>= fun _ =>
        ps2StartPort L n .port0 >>= fun _ => ps2StartPort L n .port1)
      (B.drivers L k) ()
      (if Bench.Useless k.ps2 then k else B.started L .port1 (B.started L .port0 k)) := by
  by_cases h : Bench.Useless k.ps2
  · rw [Bench.drivers, if_pos h, if_pos h]
    simp only [show (!k.ps2.port0Operational &&
      (!k.ps2.dualChannel || !k.ps2.port1Operational)) = true from h, if_true]
    exact converses_println _ _
  · rw [Bench.drivers, if_neg h, if_neg h]
    simp only [show ¬ (!k.ps2.port0Operational &&
      (!k.ps2.dualChannel || !k.ps2.port1Operational)) = true from h]
    refine Converses.congr (converses_ps2EnablePorts.bind ((converses_ps2EnableInterrupts B).bind
      ((converses_ps2StartPort B L hnull).bind
        (converses_ps2StartPort B L (hnull.congr (past_started B L .port0 k)))))) ?_
    simp only [Bench.enable, List.append_assoc]

/-- **What follows the flush.** -/
theorem converses_flushed (L : Layout) (hnull : k.idt.NullAt eip) :
    Converses eip k (fun n => flushed L n) (B.session L k) () (B.statics L k) := by
  unfold flushed
  refine Converses.congr ((converses_ps2GetConfig B.config).bind ((converses_ps2SetConfig _).bind
    ((converses_ps2TestController B).bind ((converses_ps2DetectChannels B).bind
      ((converses_ps2TestPorts B rfl).bind (converses_getKernel.bind
        (converses_drivers B L hnull))))))) ?_
  simp only [Bench.session, Bench.selfTest, List.append_assoc, List.nil_append]
  rfl

/-- From `w` to `t` the machine of the bench was initialised; `rest` is left of the bytes to
come.  The interrupt flag is as it was, and no pointer has been followed. -/
structure BroughtUp (L : Layout) (w t : World Streams) (rest : Stream' Byte) : Prop where
  kernel : t.kernel = B.statics L w.kernel
  wire : wire t.log =
    wire w.log ++ disableTalk ++ [.inb PORT_DATA B.stray] ++ B.session L w.kernel
  rest : t.bus.data = rest
  iflag : t.iflag = w.iflag
  invoked : ∀ h, .invoke h ∈ t.log → .invoke h ∈ w.log

/-- What is exchanged with the controller is meek. -/
theorem talks_meek : Talks Meek where
  status _ := trivial
  data _ := trivial
  print _ _ := trivial
  write _ := trivial
  readData := ⟨trivial, fun _ => trivial⟩
  getConfig := ⟨trivial, fun _ => trivial⟩
  setConfig _ := ⟨trivial, fun _ => trivial⟩

/-- So is the start of the keyboard driver, which changes nothing behind the table. -/
theorem types_meek : Types Meek SamePast where
  toPolls := talks_meek.toPolls
  drives _ := ⟨fun _ => ⟨⟨trivial, fun _ => trivial⟩, trivial⟩, fun _ => trivial,
    fun _ => ⟨trivial, fun _ => trivial⟩⟩
  readData := ⟨trivial, fun _ => trivial⟩
  setScanCodes := ⟨trivial, fun _ => trivial⟩
  clearMask := stays_irqClearMask trivial trivial (fun _ => trivial) fun _ => trivial
  int := trivial
  kbd _ _ := rfl
  idt _ _ _ _ := rfl

/-- `ps2_init` neither sets the interrupt flag nor follows a pointer itself. -/
theorem stays_ps2Init_meek (L : Layout) (n : ℕ) : Stays Meek SamePast (ps2Init L n) := by
  have hids : ∀ port, AssignsIds SamePast port := fun port => by
    cases port <;> exact fun _ _ => rfl
  exact stays_ps2Init types_meek talks_meek (fun _ => ⟨⟨trivial, fun _ => trivial⟩, trivial⟩)
    (fun _ _ _ => rfl) hids
    (fun _ => ⟨⟨trivial, fun _ => trivial⟩, ⟨trivial, fun _ => trivial⟩, fun _ _ => trivial⟩) L n

/-- A keyboard that reads back set 2 once. -/
def forgetfulTyping : Typing where
  scan := 1
  wrong := [⟨0, 1, 2⟩]
  wrong_answer := by decide
  last := ⟨1, 0, 1⟩
  last_answer := rfl

/-- A controller with two ports, of which the first does not pass its test, and a keyboard
on each. -/
def sampleBench : Bench where
  stray := 0xfe
  config := 0x65
  tested := 0x30
  detected := 0x14
  final := 0x10
  test0 := 1
  test1 := 0
  device := fun _ => hesitantKeyboard
  typing := fun _ => forgetfulTyping

/-- The bytes that this machine sends. -/
def sampleReplies : List Byte :=
  sampleBench.stray :: replies (sampleBench.session Layout.sample (Kernel.boot emptyIdt))

/-- The machine with this bench, on a controller that is always ready. -/
def beforeBench : World Streams :=
  .boot ⟨.const 0x01, sampleReplies ++ₛ .const 0, .const 0, .const 0⟩ emptyIdt fun _ => 0

end Ps2
end DrewOS
