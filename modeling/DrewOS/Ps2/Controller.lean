/-
# The PS/2 controller

`src/driver/ps2.c`, lines 1-381: waiting for the controller, reading and writing
its data and command ports, its configuration byte, and commands to the devices
behind it.

A wait polls the status port and counts down from `DEFAULT_WAIT`.  The result is
the counter, read as a boolean.  When the port is never ready the loop ends with
the counter decremented once more, below zero, so the wait reports success; it
reports failure only when the port becomes ready at the last poll.

`ps2_send_device_command` repeats the command as long as the device asks for it.
-/

import DrewOS.Kernel.Pic

namespace DrewOS
namespace Ps2

open ByteMem Effect

/-! ### Commands, ports and responses -/

/-- Read byte 0 of the internal memory: the configuration. -/
def CMD_READ_RAM : Byte := 0x20

/-- Write byte 0 of the internal memory. -/
def CMD_WRITE_RAM : Byte := 0x60

def CMD_DISABLE_PORT_1 : Byte := 0xa7

def CMD_ENABLE_PORT_1 : Byte := 0xa8

def CMD_TEST_PORT_1 : Byte := 0xa9

def CMD_TEST : Byte := 0xaa

def CMD_TEST_PORT_0 : Byte := 0xab

def CMD_DISABLE_PORT_0 : Byte := 0xad

def CMD_ENABLE_PORT_0 : Byte := 0xae

/-- The next data byte is for the device on port 1. -/
def CMD_WRITE_INPUT_PORT_1 : Byte := 0xd4

def CMD_RESET_DEVICE : Byte := 0xff

def CMD_ENABLE_SCAN : Byte := 0xf4

def CMD_DISABLE_SCAN : Byte := 0xf5

def CMD_IDENTIFY : Byte := 0xf2

def PORT_DATA : Word := 0x60

def PORT_STATUS : Word := 0x64

def PORT_COMMAND : Word := 0x64

def DEFAULT_WAIT : ℕ := 1024

def RESP_ACK : Byte := 0xfa

def RESP_RESEND : Byte := 0xfe

def RESP_RESET_SUCCESS : Byte := 0xaa

def RESP_RESET_FAIL : Byte := 0xfc

/-- A port as the argument of a print. -/
def portNo : Port → Dword
  | .port0 => 0
  | .port1 => 1

/-- A byte as the argument of a print. -/
def byteArg (b : Byte) : Arg := .int (b.setWidth 32)

/-! ### Waiting -/

/-- `get_status()`. -/
def getStatus : Kern Byte := readByte PORT_STATUS

/-- `command_ready()`: bit 1 of the status is clear. -/
def commandReady : Kern Bool := do
  let status ← getStatus
  return (status &&& 0x02) == 0

/-- `response_ready()`: bit 0 of the status is set. -/
def responseReady : Kern Bool := do
  let status ← getStatus
  return (status &&& 0x01) != 0

/-- `while (!ready() && wait--); return wait;` from `wait = n`.  The decrement is
also made when it finds the counter at 0. -/
def waitLoop (ready : Kern Bool) : ℕ → Kern Dword
  | 0 => do
    if ← ready then return 0 else return 0 - 1
  | n + 1 => do
    if ← ready then return BitVec.ofNat 32 (n + 1) else waitLoop ready n

/-- `ps2_buffer_wait()`. -/
def ps2BufferWait : Kern Bool := do
  let wait ← waitLoop commandReady DEFAULT_WAIT
  return wait != 0

/-- `response_wait()`. -/
def responseWait : Kern Bool := do
  let wait ← waitLoop responseReady DEFAULT_WAIT
  return wait != 0

/-! ### Reading and writing -/

/-- `try_read_data(data)`: the byte stored through `data`, `none` for `false`. -/
def tryReadData : Kern (Option Byte) := do
  if ← responseWait then
    let data ← readByte PORT_DATA
    return some data
  else
    return none

/-- `ps2_read_data()`. -/
def ps2ReadData : Kern Byte := function .readData do
  match ← tryReadData with
  | some byte => return byte
  | none =>
    println "Error: PS/2 controller did not write a response" []
    return 0

/-- `ps2_send_data(data)`. -/
def ps2SendData (data : Byte) : Kern Unit := do
  if ← ps2BufferWait then
    writeByte PORT_DATA data
  else
    println "Error: PS/2 controller faield to enter ready state" []

/-- `ps2_send_command(command)`. -/
def ps2SendCommand (command : Byte) : Kern Unit := procedure (.sendCommand command) do
  if ← ps2BufferWait then
    writeByte PORT_COMMAND command
  else
    println "Error: ps/2 controller failed to enter ready state" []

/-! ### Device commands -/

/-- One attempt of `ps2_send_device_command(cmd, port)`: send the command, and
the response to it, if there is one. -/
def attemptCommand (cmd : Byte) (port : Port) : Kern (Option Byte) := do
  onlyIf (port = .port1) (ps2SendCommand CMD_WRITE_INPUT_PORT_1)
  ps2SendData cmd
  tryReadData

/-- What `ps2_send_device_command(cmd, port)` prints about a response that is
not a request to resend. -/
def reportResponse (cmd : Byte) (port : Port) : Option Byte → Kern Unit
  | some resp =>
    if resp = RESP_ACK then return ()
    else println "Error: device %d command %x failed; expected ACK (0xFA), but received %x"
      [.int (portNo port), byteArg cmd, byteArg resp]
  | none => println "Error: device %d command %x did not generate a response (timeout)"
      [.int (portNo port), byteArg cmd]

/-- `ps2_send_device_command(cmd, port)`, calling itself at most `n` deep. -/
def ps2SendDeviceCommand : ℕ → Byte → Port → Kern Unit
  | 0, _, _ => .cut
  | n + 1, cmd, port => procedure (.sendDeviceCommand cmd port) do
    let resp ← attemptCommand cmd port
    if resp = some RESP_RESEND then
      ps2SendDeviceCommand n cmd port
    else
      reportResponse cmd port resp

/-! ### The configuration byte -/

/-- The bits of `config_t`. -/
def PORT_0_INTERRUPT : ℕ := 0

def PORT_1_INTERRUPT : ℕ := 1

def CLOCK_0 : ℕ := 4

def CLOCK_1 : ℕ := 5

def PORT_0_TRANSLATION : ℕ := 6

/-- `ps2_get_config()`. -/
def ps2GetConfig : Kern Byte := function .getConfig do
  ps2SendCommand CMD_READ_RAM
  ps2ReadData

/-- `ps2_set_config(config)`. -/
def ps2SetConfig (config : Byte) : Kern Unit := procedure (.setConfig config) do
  ps2SendCommand CMD_WRITE_RAM
  ps2SendData config

end Ps2
end DrewOS
