/-
# A controller with its configuration in memory

A closed model of the controller that says less than `DrewOS.Chips.I8042`: what the
commands that enable and disable the ports make of the configuration is left open,
but for the bits other than the two clocks (`ConfigRam.clocks_bit`), and so is what
the self-test answers and makes of it.
-/

import DrewOS.Chips.I8042

namespace DrewOS

open ByteMem Effect Ps2

/-- The commands that enable and disable the ports. -/
def portCommands : List Byte :=
  [CMD_DISABLE_PORT_0, CMD_DISABLE_PORT_1, CMD_ENABLE_PORT_0, CMD_ENABLE_PORT_1]

/-- A controller, and the devices behind its ports. -/
structure ConfigRam (δ : Type) where
  /-- What the commands that enable and disable the ports make of the configuration. -/
  clocks : Byte → Byte → Byte
  /-- They change no bit but the two clocks. -/
  clocks_bit : ∀ cmd config i, i ≠ CLOCK_0 → i ≠ CLOCK_1 →
    (clocks cmd config).getLsbD i = config.getLsbD i
  /-- The result of the self-test. -/
  selfTest : Byte
  /-- What the self-test makes of the configuration. -/
  afterTest : Byte → Byte
  /-- The results of the two port tests. -/
  test : Port → Byte
  /-- What a device answers to a byte. -/
  answer : Port → Byte → δ → List Byte × δ

namespace ConfigRam

/-- The state: the configuration, where the next byte goes, the bytes to be read and
the devices. -/
structure State (δ : Type) where
  config : Byte
  target : Target
  output : List Byte
  devices : δ

variable {δ : Type} (c : ConfigRam δ)

/-- A response. -/
def State.respond (r : Byte) (s : State δ) : State δ := { s with output := [r] }

/-- A byte written to the command port. -/
def command (cmd : Byte) (s : State δ) : State δ :=
  if cmd = CMD_READ_RAM then s.respond s.config
  else if cmd = CMD_WRITE_RAM then { s with target := .config }
  else if cmd ∈ portCommands then { s with config := c.clocks cmd s.config }
  else if cmd = CMD_TEST then State.respond c.selfTest { s with config := c.afterTest s.config }
  else if cmd = CMD_TEST_PORT_0 then s.respond (c.test .port0)
  else if cmd = CMD_TEST_PORT_1 then s.respond (c.test .port1)
  else if cmd = CMD_WRITE_INPUT_PORT_1 then { s with target := .device .port1 }
  else s

/-- A byte written to the data port. -/
def data (d : Byte) (s : State δ) : State δ :=
  match s.target with
  | .config => { s with config := d, target := .device .port0 }
  | .device port =>
    { s with
      target := .device .port0
      output := s.output ++ (c.answer port d s.devices).1
      devices := (c.answer port d s.devices).2 }

/-- The status: never busy, and whether there is a byte to be read. -/
def State.status (s : State δ) : Byte := if s.output = [] then 0 else 1

/-- The controller at its ports. -/
def bus : Bus (State δ) where
  inb port s :=
    if port = PORT_STATUS then (s.status, s)
    else if port = PORT_DATA then (s.output.headD 0, { s with output := s.output.tail })
    else (0, s)
  inw _ s := (0, s)
  outb port d s :=
    if port = PORT_COMMAND then c.command d s
    else if port = PORT_DATA then c.data d s
    else s

variable {c}

/-- This controller is always ready. -/
theorem ready_bus : AlwaysReady c.bus where
  poll _ := rfl
  input s := by
    show ((s.status &&& 0x02) == 0) = true
    unfold State.status
    split_ifs <;> rfl

/-- A byte in the buffer lets the wait for output succeed. -/
theorem full_of_output {s : State δ} (h : s.output ≠ []) : Full c.bus s := by
  show ((s.status &&& 0x01) != 0) = true
  rw [State.status, if_neg h]
  rfl

/-- The commands that test and switch the ports change at most the clock bits. -/
theorem command_ports {cmd : Byte} (h : cmd ∈ portCommands) (s : State δ) :
    c.command cmd s = { s with config := c.clocks cmd s.config } := by
  have hread : cmd ≠ CMD_READ_RAM := by
    rintro rfl
    exact absurd h (by decide)
  have hwrite : cmd ≠ CMD_WRITE_RAM := by
    rintro rfl
    exact absurd h (by decide)
  rw [command, if_neg hread, if_neg hwrite, if_pos h]

/-- `ps2_get_config()`. -/
theorem run_ps2GetConfig (w : World (State δ)) :
    ∃ t, ps2GetConfig.run (machine c.bus) w = (some w.bus.config, t) ∧
      t.bus = { w.bus with output := [] } ∧ t.kernel = w.kernel := by
  have hfull : Full c.bus (c.bus.outb PORT_COMMAND CMD_READ_RAM w.bus) :=
    full_of_output (List.cons_ne_nil _ _)
  exact run_ps2GetConfig_ready ready_bus hfull

/-- `ps2_set_config(config)`. -/
theorem run_ps2SetConfig (config : Byte) (w : World (State δ)) :
    ∃ t, (ps2SetConfig config).run (machine c.bus) w = (some (), t) ∧
      t.bus = { w.bus with config := config, target := .device .port0 } ∧
      t.kernel = w.kernel :=
  run_ps2SetConfig_ready ready_bus config w

/-- A command that is answered, and the answer. -/
theorem run_query {cmd r : Byte} {w : World (State δ)} {s : State δ}
    (h : c.command cmd w.bus = s.respond r) :
    ∃ t, (ps2SendCommand cmd >>= fun _ => ps2ReadData).run (machine c.bus) w = (some r, t) ∧
      t.bus = { s with output := [] } ∧ t.kernel = w.kernel := by
  obtain ⟨u, hrun, hbus, hk⟩ := run_ps2SendCommand_ready (@ready_bus δ c) cmd w
  have hbus : u.bus = s.respond r := hbus.trans h
  have hfull : Full c.bus u.bus := by
    rw [hbus]
    exact full_of_output (List.cons_ne_nil _ _)
  obtain ⟨t, hrun', hbus', hk'⟩ := run_ps2ReadData_ready ready_bus hfull
  rw [hbus] at hrun' hbus'
  exact ⟨t, (Prog.run_bind_of_some _ hrun).trans hrun', hbus', hk'.trans hk⟩

end ConfigRam

end DrewOS
