/-
# Exchanges with a controller that is always ready

On a bus where every poll finds the controller ready for a byte (`AlwaysReady`) a wait ends
with its first poll.  So every byte is sent, and a byte that is in the output buffer
is read; each lemma says what becomes of the bus.
-/

import DrewOS.Ps2.Controller

namespace DrewOS

open ByteMem Effect

namespace Ps2

variable {ε : Type} {b : Bus ε}

/-- Every poll finds the controller ready for a byte, and changes nothing. -/
structure AlwaysReady (b : Bus ε) : Prop where
  poll : ∀ s, (b.inb PORT_STATUS s).2 = s
  input : ∀ s, (((b.inb PORT_STATUS s).1 &&& 0x02) == 0) = true

/-- There is a byte in the output buffer. -/
def Full (b : Bus ε) (s : ε) : Prop := (((b.inb PORT_STATUS s).1 &&& 0x01) != 0) = true

/-- A wait whose first poll finds the port ready. -/
theorem run_waitLoop_ready {ready : Kern Bool} {w t : World ε}
    (h : ready.run (machine b) w = (some true, t)) (n : ℕ) :
    (waitLoop ready (n + 1)).run (machine b) w = (some (BitVec.ofNat 32 (n + 1)), t) := by
  unfold waitLoop
  rw [Prog.run_bind_of_some _ h]
  rfl

/-- The controller takes every byte at once. -/
theorem run_ps2BufferWait_ready (hb : AlwaysReady b) (w : World ε) :
    ps2BufferWait.run (machine b) w = (some true, w.afterInb b PORT_STATUS) := by
  have hready : commandReady.run (machine b) w = (some true, w.afterInb b PORT_STATUS) :=
    congrArg (fun r => (some r, w.afterInb b PORT_STATUS)) (hb.input w.bus)
  exact Prog.run_bind_of_some _ (run_waitLoop_ready hready 1023)

/-- The wait and the write that commands and data bytes share. -/
theorem run_waitAndWrite_ready (hb : AlwaysReady b) (port : Word) (d : Byte) (text : String)
    (w : World ε) :
    ∃ t, Prog.run (machine b)
        (ps2BufferWait >>= fun ok => if ok then writeByte port d else println text []) w =
          (some (), t) ∧ t.bus = b.outb port d w.bus ∧ t.kernel = w.kernel := by
  refine ⟨_, Prog.run_bind_of_some _ (run_ps2BufferWait_ready hb w), ?_, rfl⟩
  exact congrArg (b.outb port d) (hb.poll w.bus)

/-- `ps2_send_data(data)`. -/
theorem run_ps2SendData_ready (hb : AlwaysReady b) (d : Byte) (w : World ε) :
    ∃ t, (ps2SendData d).run (machine b) w = (some (), t) ∧
      t.bus = b.outb PORT_DATA d w.bus ∧ t.kernel = w.kernel :=
  run_waitAndWrite_ready hb PORT_DATA d _ w

/-- `ps2_send_command(command)`. -/
theorem run_ps2SendCommand_ready (hb : AlwaysReady b) (cmd : Byte) (w : World ε) :
    ∃ t, (ps2SendCommand cmd).run (machine b) w = (some (), t) ∧
      t.bus = b.outb PORT_COMMAND cmd w.bus ∧ t.kernel = w.kernel := by
  obtain ⟨t, hrun, hbus, hk⟩ := run_waitAndWrite_ready hb PORT_COMMAND cmd
    "Error: ps/2 controller failed to enter ready state" (w.say (.enter (.sendCommand cmd)))
  refine ⟨t.say (.leave (.sendCommand cmd) none), ?_, hbus, hk⟩
  exact (Prog.run_bind_of_some _ (run_enter ..)).trans (Prog.run_bind_of_some _ hrun)

/-- A byte that is there is found at once. -/
theorem run_responseWait_ready {w : World ε} (hfull : Full b w.bus) :
    responseWait.run (machine b) w = (some true, w.afterInb b PORT_STATUS) := by
  have hready : responseReady.run (machine b) w = (some true, w.afterInb b PORT_STATUS) :=
    congrArg (fun r => (some r, w.afterInb b PORT_STATUS)) hfull
  exact Prog.run_bind_of_some _ (run_waitLoop_ready hready 1023)

/-- `try_read_data(data)`. -/
theorem run_tryReadData_ready (hb : AlwaysReady b) {w : World ε} (hfull : Full b w.bus) :
    ∃ t, tryReadData.run (machine b) w = (some (some (b.inb PORT_DATA w.bus).1), t) ∧
      t.bus = (b.inb PORT_DATA w.bus).2 ∧ t.kernel = w.kernel := by
  have hwait := run_responseWait_ready hfull
  have hbus : (w.afterInb b PORT_STATUS).bus = w.bus := hb.poll w.bus
  have hread := run_readByte b (w.afterInb b PORT_STATUS) PORT_DATA
  rw [hbus] at hread
  refine ⟨(w.afterInb b PORT_STATUS).afterInb b PORT_DATA, ?_, ?_, rfl⟩
  · unfold tryReadData
    rw [Prog.run_bind_of_some _ hwait]
    exact Prog.run_bind_of_some _ hread
  · exact congrArg (fun s => (b.inb PORT_DATA s).2) hbus

/-- `ps2_read_data()`. -/
theorem run_ps2ReadData_ready (hb : AlwaysReady b) {w : World ε} (hfull : Full b w.bus) :
    ∃ t, ps2ReadData.run (machine b) w = (some (b.inb PORT_DATA w.bus).1, t) ∧
      t.bus = (b.inb PORT_DATA w.bus).2 ∧ t.kernel = w.kernel := by
  have hfull' : Full b (w.say (.enter .readData)).bus := hfull
  obtain ⟨t, hrun, hbus, hk⟩ := run_tryReadData_ready hb hfull'
  refine ⟨t.say (.leave .readData (some (b.inb PORT_DATA w.bus).1)), ?_, hbus, hk⟩
  unfold ps2ReadData function
  rw [Prog.run_bind_of_some _ (run_enter ..), Prog.bind_bind, Prog.run_bind_of_some _ hrun]
  rfl

/-- `ps2_get_config()`, when the command is answered. -/
theorem run_ps2GetConfig_ready (hb : AlwaysReady b) {w : World ε}
    (hfull : Full b (b.outb PORT_COMMAND CMD_READ_RAM w.bus)) :
    ∃ t, ps2GetConfig.run (machine b) w =
        (some (b.inb PORT_DATA (b.outb PORT_COMMAND CMD_READ_RAM w.bus)).1, t) ∧
      t.bus = (b.inb PORT_DATA (b.outb PORT_COMMAND CMD_READ_RAM w.bus)).2 ∧
      t.kernel = w.kernel := by
  obtain ⟨t, hrun, hbus, hk⟩ :=
    run_ps2SendCommand_ready hb CMD_READ_RAM (w.say (.enter .getConfig))
  rw [World.say_bus] at hbus
  rw [← hbus] at hfull ⊢
  obtain ⟨u, hrun', hbus', hk'⟩ := run_ps2ReadData_ready hb hfull
  refine ⟨u.say (.leave .getConfig (some (b.inb PORT_DATA t.bus).1)), ?_, hbus', hk'.trans hk⟩
  unfold ps2GetConfig function
  rw [Prog.run_bind_of_some _ (run_enter ..), Prog.bind_bind, Prog.run_bind_of_some _ hrun,
    Prog.run_bind_of_some _ hrun']
  rfl

/-- `ps2_set_config(config)`. -/
theorem run_ps2SetConfig_ready (hb : AlwaysReady b) (config : Byte) (w : World ε) :
    ∃ t, (ps2SetConfig config).run (machine b) w = (some (), t) ∧
      t.bus = b.outb PORT_DATA config (b.outb PORT_COMMAND CMD_WRITE_RAM w.bus) ∧
      t.kernel = w.kernel := by
  obtain ⟨t, hrun, hbus, hk⟩ :=
    run_ps2SendCommand_ready hb CMD_WRITE_RAM (w.say (.enter (.setConfig config)))
  obtain ⟨u, hrun', hbus', hk'⟩ := run_ps2SendData_ready hb config t
  refine ⟨u.say (.leave (.setConfig config) none), ?_, ?_, hk'.trans hk⟩
  · unfold ps2SetConfig procedure
    rw [Prog.run_bind_of_some _ (run_enter ..), Prog.bind_bind, Prog.run_bind_of_some _ hrun,
      Prog.run_bind_of_some _ hrun']
    rfl
  · rw [World.say_bus, hbus', hbus]
    rfl

end Ps2
end DrewOS
