/-
# Initialisation of the PS/2 controller

`src/driver/ps2.c`, lines 116-261 and 383-601.  `ps2_init` tests the controller,
finds out how many ports it has, tests them, enables those that work and starts
the driver of the device behind each.  Its parts are named here by what they do;
`ps2Init` puts them together in the order of the source.
-/

import DrewOS.Ps2.Keyboard

namespace DrewOS
namespace Ps2

open ByteMem Effect

/-! ### Device types -/

/-- `device_kind_t`. -/
inductive DeviceKind where
  | keyboard | mouse | unknown
  deriving DecidableEq, Repr

/-- `device_type_t`. -/
inductive DeviceType where
  | kbdAt | mousePs2 | mouseScrollWheel | mouse5Button | kbdMf2 | kbdShort | kbdN97 | kbd122Key
  | kbdJpnG | kbdJpnP | kbdJpnA | kbdNcdSun | devUnknown
  deriving DecidableEq, Repr

/-- `get_device_kind(type)`. -/
def getDeviceKind : DeviceType → DeviceKind
  | .mousePs2 | .mouseScrollWheel | .mouse5Button => .mouse
  | .kbdMf2 | .kbdShort | .kbdN97 | .kbd122Key | .kbdJpnG | .kbdJpnP | .kbdJpnA
  | .kbdNcdSun => .keyboard
  | .devUnknown | .kbdAt => .unknown

/-- `get_device_type(device_id)`. -/
def getDeviceType (deviceId : Word) : DeviceType :=
  if deviceId = 0 then .mousePs2
  else if deviceId = 0x03 then .mouseScrollWheel
  else if deviceId = 0x04 then .mouse5Button
  else if deviceId = 0xab83 ∨ deviceId = 0xabc1 then .kbdMf2
  else if deviceId = 0xab84 then .kbdShort
  else if deviceId = 0xab85 then .kbdN97
  else if deviceId = 0xab86 then .kbd122Key
  else if deviceId = 0xab90 then .kbdJpnG
  else if deviceId = 0xab91 then .kbdJpnP
  else if deviceId = 0xab92 then .kbdJpnA
  else if deviceId = 0xaca1 then .kbdNcdSun
  else .devUnknown

/-- `get_device_type_str(type)`. -/
def getDeviceTypeStr : DeviceType → String
  | .kbdAt => "Ancient AT keyboard"
  | .mousePs2 => "Standard PS/2 mouse"
  | .mouseScrollWheel => "Mouse with scroll wheel"
  | .mouse5Button => "5-button mouse"
  | .kbdMf2 => "MF2 keyboard"
  | .kbdShort => "Short keyboard"
  | .kbdN97 => "NCD N-97 keyboard, or 122-Key host connect(ed) keyboard"
  | .kbd122Key => "122-key keyboard"
  | .kbdJpnG => "Japanese \"G\" keyboard"
  | .kbdJpnP => "Japanese \"P\" keyboard"
  | .kbdJpnA => "Japanese \"A\" keyboard"
  | .kbdNcdSun => "NCD Sun layout keyboard"
  | .devUnknown => "Unknown/unrecognised device"

/-! ### Static variables -/

/-- An assignment to the statics of `ps2.c`. -/
def modifyPs2 (f : Ps2Statics → Ps2Statics) : Kern Unit :=
  modifyKernel fun k => { k with ps2 := f k.ps2 }

/-- An assignment to `*device_id`, which is `port0_id` or `port1_id`. -/
def modifyDeviceId (port : Port) (f : Word → Word) : Kern Unit :=
  modifyPs2 fun p => match port with
    | .port0 => { p with port0Id := f p.port0Id }
    | .port1 => { p with port1Id := f p.port1Id }

/-- The device ID stored for a port. -/
def Ps2Statics.deviceId (p : Ps2Statics) : Port → Word
  | .port0 => p.port0Id
  | .port1 => p.port1Id

/-! ### Resetting a port -/

/-- The three bytes that answer a reset; `none` as soon as one does not come. -/
def resetResponse : Kern (Option (Byte × Byte × Byte)) := do
  match ← tryReadData with
  | none => return none
  | some resp0 =>
    match ← tryReadData with
    | none => return none
    | some resp1 =>
      match ← tryReadData with
      | none => return none
      | some resp2 => return some (resp0, resp1, resp2)

/-- What is printed about the first two bytes of the answer, which devices send in
either order. -/
def reportReset (port : Port) (resp0 resp1 : Byte) : Kern Unit :=
  if (resp0 = RESP_ACK ∧ resp1 = RESP_RESET_SUCCESS) ∨
      (resp0 = RESP_RESET_SUCCESS ∧ resp1 = RESP_ACK) then
    return ()
  else
    println "Failed to reset port %d; resp = %x"
      [.int (portNo port), .int ((resp0 ++ resp1).setWidth 32)]

/-- The optional byte after the device ID `0xab` or `0xac`. -/
def readSpecialCode (port : Port) : Kern Unit := do
  match ← tryReadData with
  | none => return ()
  | some specialCode => modifyDeviceId port fun id => id + (specialCode.setWidth 16 <<< 8)

/-- The two bytes that follow the identify command, each of which may be missing. -/
def identifyPort (port : Port) : Kern Unit := do
  match ← tryReadData with
  | none => return ()
  | some response =>
    modifyDeviceId port fun _ => response.setWidth 16
    match ← tryReadData with
    | none => return ()
    | some response => modifyDeviceId port fun id => (id <<< 8) + response.setWidth 16

/-- The body of `reset_port(device_id, port)`. -/
def resetPortBody (n : ℕ) (port : Port) : Kern Unit := do
  onlyIf (port = .port1) (ps2SendCommand CMD_WRITE_INPUT_PORT_1)
  ps2SendData CMD_RESET_DEVICE
  match ← resetResponse with
  | none =>
    modifyDeviceId port fun _ => 0
    println "Port %d is not populated" [.int (portNo port)]
  | some (resp0, resp1, resp2) =>
    if resp0 = RESP_RESET_FAIL then
      println "Port %d reset failed" [.int (portNo port)]
    else
      reportReset port resp0 resp1
      modifyDeviceId port fun _ => resp2.setWidth 16
      onlyIf (resp2 = 0xab ∨ resp2 = 0xac) (readSpecialCode port)
      ps2SendDeviceCommand n CMD_DISABLE_SCAN port
      ps2SendDeviceCommand n CMD_IDENTIFY port
      identifyPort port
      ps2SendDeviceCommand n CMD_ENABLE_SCAN port

/-- `reset_port(device_id, port)`. -/
def resetPort (n : ℕ) (port : Port) : Kern Unit :=
  procedure (.resetPort port) (resetPortBody n port)

/-- `ps2_init_device(device_id, port)`.  The message about an unknown device
prints `port0_id` for both ports. -/
def ps2InitDevice (L : Layout) (n : ℕ) (deviceId : Word) (port : Port) : Kern Unit := do
  let type := getDeviceType deviceId
  if type = .devUnknown then
    let k ← getKernel
    println "Failed to initialise ps2 device in port %d: Unknown device (ID: %x)"
      [.int (portNo port), .int (k.ps2.port0Id.setWidth 32)]
  else
    println "Port %d successfully initialised. Device type: %s"
      [.int (portNo port), .str (getDeviceTypeStr type)]
    if getDeviceKind type = .keyboard then
      ps2KbdInit L n port
    else
      return ()

/-! ### `ps2_init` -/

/-- `print_port_error_msg(status)`. -/
def printPortErrorMsg (status : Byte) : Kern Unit :=
  println (if status = 0x01 then "Clock line stuck low"
    else if status = 0x02 then "Clock line stuck high"
    else if status = 0x03 then "Data line stuck low"
    else if status = 0x04 then "Data line stuck high "
    else "Unknown error") []

/-- The first change of the configuration byte. -/
def initialConfig (config : Byte) : Byte :=
  putBit (putBit (putBit config PORT_0_INTERRUPT true) PORT_0_TRANSLATION false) CLOCK_0 false

/-- Lines 473-492: disable the ports, flush the output buffer and write the first
configuration, which is also the result. -/
def ps2Disable : Kern Byte := do
  ps2SendCommand CMD_DISABLE_PORT_0
  ps2SendCommand CMD_DISABLE_PORT_1
  let _ ← readByte PORT_DATA
  let config ← ps2GetConfig
  let config := initialConfig config
  ps2SetConfig config
  return config

/-- Lines 494-511: test the controller and restore the configuration.  `false` when
the self-test has failed. -/
def ps2TestController (config : Byte) : Kern Bool := do
  ps2SendCommand CMD_TEST
  let result ← ps2ReadData
  if result ≠ 0x55 then
    println "Error: PS/2 self-test failed" []
    return false
  else
    let newConfig ← ps2GetConfig
    onlyIf (newConfig ≠ config) (ps2SetConfig config)
    return true

/-- Lines 513-534: is there a second port? -/
def ps2DetectChannels : Kern Unit := do
  ps2SendCommand CMD_ENABLE_PORT_1
  let config ← ps2GetConfig
  modifyPs2 fun p => { p with dualChannel := !config.getLsbD CLOCK_1 }
  let k ← getKernel
  onlyIf (k.ps2.dualChannel = true) do
    ps2SendCommand CMD_DISABLE_PORT_1
    ps2SetConfig (putBit (putBit config PORT_1_INTERRUPT false) CLOCK_1 false)

/-- The test of one port: the command, the flag that takes the result, the text
printed when the port is faulty. -/
def testPort (command : Byte) (setFlag : Bool → Ps2Statics → Ps2Statics) (text : String) :
    Kern Unit := do
  ps2SendCommand command
  let resp ← ps2ReadData
  modifyPs2 (setFlag (resp == 0))
  onlyIf (resp ≠ 0) do
    print text []
    printPortErrorMsg resp

/-- Lines 539-546: the test of port 0. -/
def testPort0 : Kern Unit :=
  testPort CMD_TEST_PORT_0 (fun b p => { p with port0Operational := b }) "PS/2 port 0 is faulty: "

/-- Lines 549-555: the test of port 1. -/
def testPort1 : Kern Unit :=
  testPort CMD_TEST_PORT_1 (fun b p => { p with port1Operational := b }) "PS/2 port 1 is faulty: "

/-- Lines 536-556: test the ports. -/
def ps2TestPorts : Kern Unit := do
  testPort0
  let k ← getKernel
  onlyIf (k.ps2.dualChannel = true) testPort1

/-- Lines 562-568: enable the ports that work. -/
def ps2EnablePorts : Kern Unit := do
  let k ← getKernel
  onlyIf (k.ps2.port0Operational = true) (ps2SendCommand CMD_ENABLE_PORT_0)
  onlyIf (k.ps2.port1Operational = true) (ps2SendCommand CMD_ENABLE_PORT_1)

/-- Lines 570-578: enable the interrupts of the ports that work. -/
def ps2EnableInterrupts : Kern Unit := do
  let config ← ps2GetConfig
  let k ← getKernel
  let config := if k.ps2.port0Operational then putBit config PORT_0_INTERRUPT true else config
  let config := if k.ps2.port1Operational then putBit config PORT_1_INTERRUPT true else config
  ps2SetConfig config

/-- Is the port found to work? -/
def Ps2Statics.operational (p : Ps2Statics) : Port → Bool
  | .port0 => p.port0Operational
  | .port1 => p.port1Operational

/-- Lines 588-593 and 595-600: reset a port and start the driver of its device. -/
def ps2StartPort (L : Layout) (n : ℕ) (port : Port) : Kern Unit := do
  let k ← getKernel
  if Ps2Statics.operational k.ps2 port then
    resetPort n port
    let k ← getKernel
    ps2InitDevice L n (Ps2Statics.deviceId k.ps2 port) port
  else
    modifyDeviceId port fun _ => 0

/-- `ps2_init()`. -/
def ps2Init (L : Layout) (n : ℕ) : Kern Unit := do
  let config ← ps2Disable
  if ← ps2TestController config then
    ps2DetectChannels
    ps2TestPorts
    let k ← getKernel
    if !k.ps2.port0Operational && (!k.ps2.dualChannel || !k.ps2.port1Operational) then
      println "No PS/2 ports are operational. PS/2 driver will be disabled." []
    else
      ps2EnablePorts
      ps2EnableInterrupts
      ps2StartPort L n .port0
      ps2StartPort L n .port1
  else
    return ()

end Ps2
end DrewOS
