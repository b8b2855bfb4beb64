/-
# The 8042 keyboard controller

A closed model of the chip behind ports `0x60` and `0x64`, as far as the driver
uses it: the configuration is a byte of memory that command `0x20` reads and
`0x60` writes, a response takes the place of what is in the output buffer, and
every poll finds the chip prompt.  The tests' results, what the self-test does to
the configuration and the devices behind the two ports are parameters.
-/

import DrewOS.Ps2.Ready

namespace DrewOS

open ByteMem Effect Ps2

/-- Where the next byte written to the data port goes. -/
inductive Target where
  | config
  | device (port : Port)
  deriving DecidableEq

/-- A controller and the devices behind its ports. -/
structure I8042 (δ : Type) where
  /-- Is there a second port? -/
  dual : Bool
  /-- The results of the two port tests. -/
  test : Port → Byte
  /-- What the self-test makes of the configuration. -/
  afterTest : Byte → Byte
  /-- What a device answers to a byte. -/
  answer : Port → Byte → δ → List Byte × δ

namespace I8042

/-- The state of the chip: its configuration byte, where the next byte goes, the
bytes to be read, the devices, and the configurations written so far. -/
structure State (δ : Type) where
  config : Byte
  target : Target
  output : List Byte
  devices : δ
  written : List Byte

variable {δ : Type} (c : I8042 δ)

/-- The chip before the kernel uses it. -/
def State.start (config : Byte) (output : List Byte) (devices : δ) : State δ :=
  ⟨config, .device .port0, output, devices, []⟩

/-- A response. -/
def State.respond (r : Byte) (s : State δ) : State δ := { s with output := [r] }

/-- The configuration as it is read: without a second port, its clock is off. -/
def readConfig (s : State δ) : Byte := if c.dual then s.config else putBit s.config CLOCK_1 true

/-- Switch the clock of the second port off or on; without one, nothing happens. -/
def setClock1 (off : Bool) (s : State δ) : State δ :=
  if c.dual then { s with config := putBit s.config CLOCK_1 off } else s

/-- A byte written to the command port. -/
def command (cmd : Byte) (s : State δ) : State δ :=
  if cmd = CMD_READ_RAM then s.respond (c.readConfig s)
  else if cmd = CMD_WRITE_RAM then { s with target := .config }
  else if cmd = CMD_DISABLE_PORT_1 then c.setClock1 true s
  else if cmd = CMD_ENABLE_PORT_1 then c.setClock1 false s
  else if cmd = CMD_TEST_PORT_1 then (if c.dual then s.respond (c.test .port1) else s)
  else if cmd = CMD_TEST then State.respond 0x55 { s with config := c.afterTest s.config }
  else if cmd = CMD_TEST_PORT_0 then s.respond (c.test .port0)
  else if cmd = CMD_DISABLE_PORT_0 then { s with config := putBit s.config CLOCK_0 true }
  else if cmd = CMD_ENABLE_PORT_0 then { s with config := putBit s.config CLOCK_0 false }
  else if cmd = CMD_WRITE_INPUT_PORT_1 then { s with target := .device .port1 }
  else s

/-- A byte written to the data port. -/
def data (d : Byte) (s : State δ) : State δ :=
  match s.target with
  | .config => { s with config := d, target := .device .port0, written := s.written ++ [d] }
  | .device port =>
    { s with
      target := .device .port0
      output := s.output ++ (c.answer port d s.devices).1
      devices := (c.answer port d s.devices).2 }

/-- The status: never busy, and whether there is a byte to be read. -/
def State.status (s : State δ) : Byte := if s.output = [] then 0 else 1

/-- The chip at its ports. -/
def bus : Bus (State δ) where
  inb port s :=
    if port = PORT_STATUS then (s.status, s)
    else if port = PORT_DATA then (s.output.headD 0, { s with output := s.output.tail })
    else (0, s)
  inw _ s := (0, s)
  outb port d s :=
    if port = PORT_COMMAND then c.command d s
    else if port = PORT_DATA then c.data d s
    else s

/-- Switching the clock of a port sends nothing to a device. -/
@[simp] theorem setClock1_written (off : Bool) (s : State δ) :
    (c.setClock1 off s).written = s.written := by
  unfold setClock1
  split_ifs <;> rfl

/-- No command writes a configuration. -/
@[simp] theorem command_written (cmd : Byte) (s : State δ) :
    (c.command cmd s).written = s.written := by
  simp only [command, State.respond, apply_ite State.written, setClock1_written, ite_self]

/-! ### The driver's exchanges with the chip -/

variable {c}

/-- The chip takes every byte at once. -/
theorem ready_bus : AlwaysReady c.bus where
  poll _ := rfl
  input s := by
    show ((s.status &&& 0x02) == 0) = true
    unfold State.status
    split_ifs <;> rfl

/-- A byte in the buffer lets the wait for output succeed. -/
theorem full_of_output {s : State δ} (h : s.output ≠ []) : Full c.bus s := by
  show ((s.status &&& 0x01) != 0) = true
  rw [State.status, if_neg h]
  rfl

/-- `ps2_send_command(command)`. -/
theorem run_ps2SendCommand (cmd : Byte) (w : World (State δ)) :
    ∃ t, (ps2SendCommand cmd).run (machine c.bus) w = (some (), t) ∧
      t.bus = c.command cmd w.bus ∧ t.kernel = w.kernel :=
  run_ps2SendCommand_ready ready_bus cmd w

/-- `ps2_get_config()`. -/
theorem run_ps2GetConfig (w : World (State δ)) :
    ∃ t, ps2GetConfig.run (machine c.bus) w = (some (c.readConfig w.bus), t) ∧
      t.bus = { w.bus with output := [] } ∧ t.kernel = w.kernel := by
  have hfull : Full c.bus (c.bus.outb PORT_COMMAND CMD_READ_RAM w.bus) :=
    full_of_output (List.cons_ne_nil _ _)
  exact run_ps2GetConfig_ready ready_bus hfull

/-- `ps2_set_config(config)`. -/
theorem run_ps2SetConfig (config : Byte) (w : World (State δ)) :
    ∃ t, (ps2SetConfig config).run (machine c.bus) w = (some (), t) ∧
      t.bus = { w.bus with
        config := config, target := .device .port0, written := w.bus.written ++ [config] } ∧
      t.kernel = w.kernel :=
  run_ps2SetConfig_ready ready_bus config w

end I8042

end DrewOS
