/-
# The interrupt bits of the configuration

`ps2_init` against the model of the controller: which configurations it writes.
The comment before its first write says that interrupts are disabled by clearing
bits 0 and 6; the code sets bit 0 (`initialConfig`).  So the first configuration
is written with an interrupt enabled, whatever the controller is like
(`not_interruptBits`).
-/

import DrewOS.Chips.I8042
import DrewOS.Ps2.Decisions

namespace DrewOS

open ByteMem Effect

namespace Ps2

variable {δ : Type}

/-- A functional port has been enabled: port 0, or port 1 for a second time (the
first time is the search for a second port). -/
def PortsEnabled (log : List Event) : Prop :=
  .enter (.sendCommand CMD_ENABLE_PORT_0) ∈ log ∨
    2 ≤ log.count (.enter (.sendCommand CMD_ENABLE_PORT_1))

/-- The interrupt bits follow the health of the ports, in all runs of the
initialisation against a controller that starts in `s`. -/
structure InterruptBits (c : I8042 δ) (L : Layout) (s : I8042.State δ) (table : Idt) (mem : Mem) :
    Prop where
  /-- Before the ports are enabled, no configuration that is written enables an
  interrupt. -/
  before : ∀ n, ∀ t ∈ (ps2Init L n).states (machine c.bus) (.boot s table mem),
    ¬ PortsEnabled t.log → ∀ config ∈ t.bus.written,
      config.getLsbD PORT_0_INTERRUPT = false ∧
      (c.dual = true → config.getLsbD PORT_1_INTERRUPT = false)
  /-- Once they are enabled, and a port is about to be reset, the interrupt of a
  port is enabled just when the port works. -/
  after : ∀ n, ∀ t ∈ (ps2Init L n).states (machine c.bus) (.boot s table mem),
    (∃ port, .enter (.resetPort port) ∈ t.log) →
      t.bus.config.getLsbD PORT_0_INTERRUPT = t.kernel.ps2.port0Operational ∧
      t.bus.config.getLsbD PORT_1_INTERRUPT = t.kernel.ps2.port1Operational

/-- `ps2Disable` writes the configuration that it has computed. -/
theorem run_ps2Disable (c : I8042 δ) (w : World (I8042.State δ)) :
    ∃ config t, ps2Disable.run (machine c.bus) w = (some (initialConfig config), t) ∧
      t.bus.written = w.bus.written ++ [initialConfig config] := by
  obtain ⟨t₁, hrun₁, hbus₁, -⟩ := I8042.run_ps2SendCommand (c := c) CMD_DISABLE_PORT_0 w
  obtain ⟨t₂, hrun₂, hbus₂, -⟩ := I8042.run_ps2SendCommand (c := c) CMD_DISABLE_PORT_1 t₁
  obtain ⟨t₃, hrun₃, hbus₃, -⟩ := I8042.run_ps2GetConfig (c := c) (t₂.afterInb c.bus PORT_DATA)
  obtain ⟨t₄, hrun₄, hbus₄, -⟩ := I8042.run_ps2SetConfig (c := c)
    (initialConfig (c.readConfig (t₂.afterInb c.bus PORT_DATA).bus)) t₃
  have hwritten : t₃.bus.written = w.bus.written := by
    rw [hbus₃]
    show t₂.bus.written = _
    rw [hbus₂, I8042.command_written, hbus₁, I8042.command_written]
  refine ⟨c.readConfig (t₂.afterInb c.bus PORT_DATA).bus, t₄, ?_, ?_⟩
  · unfold ps2Disable
    rw [Prog.run_bind_of_some _ hrun₁, Prog.run_bind_of_some _ hrun₂,
      Prog.run_bind_of_some _ (run_readByte ..), Prog.run_bind_of_some _ hrun₃,
      Prog.run_bind_of_some _ hrun₄]
    rfl
  · rw [hbus₄, hwritten]

/-- The first lines enable no port. -/
theorem not_portsEnabled {l : List Event}
    (h : ∀ e ∈ l, Avoids [CMD_ENABLE_PORT_0, CMD_ENABLE_PORT_1] e) : ¬ PortsEnabled l := by
  rintro (h0 | h1)
  · exact h _ h0 (List.mem_cons_self ..)
  · have hne : .enter (.sendCommand CMD_ENABLE_PORT_1) ∉ l := fun hm =>
      h _ hm (List.mem_cons_of_mem _ (List.mem_cons_self ..))
    rw [List.count_eq_zero.2 hne] at h1
    exact absurd h1 (by decide)

/-- The first configuration byte has the interrupt of port 0 set. -/
theorem initialConfig_port0 (config : Byte) :
    (initialConfig config).getLsbD PORT_0_INTERRUPT = true := by
  rw [initialConfig, getLsbD_putBit _ (by decide), getLsbD_putBit _ (by decide),
    getLsbD_putBit _ (by decide)]
  rfl

/-- **The first configuration enables an interrupt.**  There is a state of the run,
before any port is enabled, in which a configuration with bit 0 has been written. -/
theorem first_configuration (c : I8042 δ) (L : Layout) (n : ℕ) (config : Byte)
    (output : List Byte) (devices : δ) (table : Idt) (mem : Mem) :
    ∃ t ∈ (ps2Init L n).states (machine c.bus)
        (.boot (.start config output devices) table mem),
      ¬ PortsEnabled t.log ∧
      ∃ first ∈ t.bus.written, first.getLsbD PORT_0_INTERRUPT = true := by
  obtain ⟨v, t, hrun, hwritten⟩ :=
    run_ps2Disable c (.boot (.start config output devices) table mem)
  have hmem : t ∈ ps2Disable.states (machine c.bus)
      (.boot (.start config output devices) table mem) := by
    have h := Prog.run_mem_states (machine c.bus) ps2Disable
      (.boot (.start config output devices) table mem)
    rw [hrun] at h
    refine h.resolve_left fun hw => ?_
    have : t.bus.written = [] := by
      rw [show t = _ from hw]
      rfl
    rw [this] at hwritten
    exact absurd hwritten.symm (List.append_ne_nil_of_right_ne_nil _ (List.cons_ne_nil _ _))
  have hstays : Stays (Avoids [CMD_ENABLE_PORT_0, CMD_ENABLE_PORT_1]) (fun _ _ => True)
      ps2Disable :=
    stays_ps2Disable (talks_avoids _) fun c hc => sends_avoids (by
      revert c
      decide)
  refine ⟨t, ?_, ?_, initialConfig v, ?_, initialConfig_port0 v⟩
  · rw [ps2Init, Prog.states_bind]
    exact List.mem_append_left _ hmem
  · have hext := (sat_stays (fun _ => trivial) (fun _ _ _ _ _ => trivial) c.bus hstays
      (.boot (.start config output devices) table mem)).run hrun
    obtain ⟨l, hl, hE⟩ := hext.log
    rw [hl]
    exact not_portsEnabled hE
  · rw [hwritten]
    exact List.mem_append_right _ (List.mem_singleton.2 rfl)

/-- **The interrupt bits do not follow the health of the ports**, whatever the
controller is like and whatever its configuration was. -/
theorem not_interruptBits (c : I8042 δ) (L : Layout) (config : Byte) (output : List Byte)
    (devices : δ) (table : Idt) (mem : Mem) :
    ¬ InterruptBits c L (.start config output devices) table mem := by
  intro h
  obtain ⟨t, ht, hnot, first, hfirst, hbit⟩ :=
    first_configuration c L 0 config output devices table mem
  exact absurd (hbit.symm.trans (h.before 0 t ht hnot first hfirst).1) (by decide)

/-- A controller with two ports that pass their tests, and nothing behind them. -/
def healthy : I8042 Unit where
  dual := true
  test _ := 0
  afterTest config := config
  answer _ _ _ := ([], ())

/-- The same from configuration 0 with this controller. -/
theorem not_interruptBits_healthy :
    ¬ InterruptBits healthy Layout.sample (.start 0 [] ()) emptyIdt fun _ => 0 := by
  intro h
  obtain ⟨t, ht, hnot, first, hfirst, hbit⟩ :=
    first_configuration healthy Layout.sample 0 0 [] () emptyIdt fun _ => 0
  exact absurd (hbit.symm.trans (h.before 0 t ht hnot first hfirst).1) (by decide)

end Ps2
end DrewOS
