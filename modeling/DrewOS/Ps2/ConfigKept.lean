/-
# The configuration bits that are not the driver's

`ps2_init` reads, changes and writes the configuration three times, the self-test may
put anything in its place, and what follows depends on the answers of the hardware.
Against a controller with its configuration in memory, the system flag, bit 3 and
bit 7 are what they were at first when a port is reset and when `ps2_init` returns,
and the translation is off.

After the self-test the first configuration is in force again, and from there on every
command keeps the bits (`Holds`).  Once the devices are reset no configuration is
written any more (`stays_ps2StartPort`).
-/

import DrewOS.Chips.ConfigRam
import DrewOS.Ps2.Reports

namespace DrewOS

open ByteMem Effect

namespace Ps2

/-! ### Bits -/

/-- `system_flag`, `unused` and `zero` of `config_t`. -/
def foreignBits : List ℕ := [2, 3, 7]

/-- These bits are those of `initial`, and the translation is off. -/
structure Kept (initial config : Byte) : Prop where
  bits : ∀ i ∈ foreignBits, config.getLsbD i = initial.getLsbD i
  translation : config.getLsbD PORT_0_TRANSLATION = false

/-- The two differ in the bits of the driver at most. -/
def Alike (config config' : Byte) : Prop :=
  ∀ i ∈ PORT_0_TRANSLATION :: foreignBits, config'.getLsbD i = config.getLsbD i

variable {initial config config' : Byte}

/-- Being kept depends on the foreign bits only. -/
theorem Kept.alike (h : Kept initial config) (ha : Alike config config') :
    Kept initial config' := by
  refine ⟨fun i hi => ?_, ?_⟩
  · rw [ha i (List.mem_cons_of_mem _ hi)]
    exact h.bits i hi
  · rw [ha _ (List.mem_cons_self ..)]
    exact h.translation

/-- Putting a bit of the driver's own changes no foreign one. -/
theorem alike_putBit {i : ℕ} (hi : i < 8) (hown : i ∉ PORT_0_TRANSLATION :: foreignBits)
    (config : Byte) (b : Bool) : Alike config (putBit config i b) := by
  intro j hj
  rw [getLsbD_putBit config hi, if_neg]
  rintro rfl
  exact hown hj

/-- The commands that switch the clocks change no foreign bit. -/
theorem alike_clocks {δ : Type} (c : ConfigRam δ) (cmd config : Byte) :
    Alike config (c.clocks cmd config) := by
  intro i hi
  refine c.clocks_bit cmd config i ?_ ?_
  · rintro rfl
    exact absurd hi (by decide)
  · rintro rfl
    exact absurd hi (by decide)

/-- Bits that stay over two stretches stay over both. -/
theorem Alike.trans {config'' : Byte} (h : Alike config config') (h' : Alike config' config'') :
    Alike config config'' := fun i hi => (h' i hi).trans (h i hi)

/-- The first configuration. -/
theorem kept_initialConfig (h : Alike initial config) : Kept initial (initialConfig config) := by
  constructor
  · intro i hi
    have hne : ∀ j ∉ foreignBits, i ≠ j := by
      rintro j hj rfl
      exact hj hi
    rw [initialConfig, getLsbD_putBit _ (by decide), getLsbD_putBit _ (by decide),
      getLsbD_putBit _ (by decide), if_neg (hne _ (by decide)), if_neg (hne _ (by decide)),
      if_neg (hne _ (by decide))]
    exact h i (List.mem_cons_of_mem _ hi)
  · rw [initialConfig, getLsbD_putBit _ (by decide), getLsbD_putBit _ (by decide)]
    rfl

/-! ### Code that keeps the bits -/

variable {δ α β : Type} {c : ConfigRam δ}

/-- The bits are kept, and the next byte is not for the configuration. -/
structure Held (initial : Byte) (s : ConfigRam.State δ) : Prop where
  kept : Kept initial s.config
  target : s.target ≠ .config

/-- The code returns and keeps the bits; `Q` is known of its result. -/
def Holds (c : ConfigRam δ) (initial : Byte) (p : Kern α) (Q : α → Prop) : Prop :=
  ∀ w : World (ConfigRam.State δ), Held initial w.bus →
    ∃ a t, p.run (machine c.bus) w = (some a, t) ∧ Held initial t.bus ∧ Q a

/-- What both parts hold, the sequence does. -/
theorem Holds.bind {p : Kern α} {f : α → Kern β} {Q : α → Prop} {R : β → Prop}
    (hp : Holds c initial p Q) (hf : ∀ a, Q a → Holds c initial (f a) R) :
    Holds c initial (p >>= f) R := by
  intro w hw
  obtain ⟨a, t, hrun, ht, ha⟩ := hp w hw
  obtain ⟨b, u, hrun', hu, hb⟩ := hf a ha t ht
  exact ⟨b, u, (Prog.run_bind_of_some _ hrun).trans hrun', hu, hb⟩

theorem holds_pure {Q : α → Prop} {a : α} (h : Q a) : Holds c initial (pure a) Q :=
  fun w hw => ⟨a, w, rfl, hw, h⟩

/-- A test holds the bits if its body does. -/
theorem holds_onlyIf (cond : Prop) [Decidable cond] {p : Kern Unit}
    (hp : Holds c initial p fun _ => True) :
    Holds c initial (onlyIf cond p) fun _ => True := by
  unfold onlyIf
  split_ifs
  · exact hp
  · exact holds_pure trivial

theorem holds_printMessage (m : Message) : Holds c initial (printMessage m) fun _ => True :=
  fun _ hw => ⟨(), _, rfl, hw, trivial⟩

theorem holds_getKernel : Holds c initial getKernel fun _ => True :=
  fun w hw => ⟨w.kernel, w, rfl, hw, trivial⟩

theorem holds_modifyPs2 (f : Ps2Statics → Ps2Statics) :
    Holds c initial (modifyPs2 f) fun _ => True :=
  fun _ hw => ⟨(), _, rfl, hw, trivial⟩

/-- The commands that enable and disable the ports. -/
theorem holds_ps2SendCommand {cmd : Byte} (h : cmd ∈ portCommands) :
    Holds c initial (ps2SendCommand cmd) fun _ => True := by
  intro w hw
  obtain ⟨t, hrun, hbus, -⟩ := run_ps2SendCommand_ready (@ConfigRam.ready_bus δ c) cmd w
  have hbus : t.bus = { w.bus with config := c.clocks cmd w.bus.config } :=
    hbus.trans (ConfigRam.command_ports h w.bus)
  refine ⟨(), t, hrun, ⟨?_, ?_⟩, trivial⟩
  · rw [hbus]
    exact hw.kept.alike (alike_clocks c cmd w.bus.config)
  · rw [hbus]
    exact hw.target

/-- `ps2_get_config` reads a configuration with the foreign bits as they were. -/
theorem holds_ps2GetConfig : Holds c initial ps2GetConfig (Kept initial) := by
  intro w hw
  obtain ⟨t, hrun, hbus, -⟩ := ConfigRam.run_ps2GetConfig (c := c) w
  refine ⟨w.bus.config, t, hrun, ?_, hw.kept⟩
  rw [hbus]
  exact ⟨hw.kept, hw.target⟩

/-- A configuration with the foreign bits as they were may be written. -/
theorem holds_ps2SetConfig (h : Kept initial config) :
    Holds c initial (ps2SetConfig config) fun _ => True := by
  intro w _
  obtain ⟨t, hrun, hbus, -⟩ := ConfigRam.run_ps2SetConfig (c := c) config w
  refine ⟨(), t, hrun, ?_, trivial⟩
  rw [hbus]
  exact ⟨h, nofun⟩

/-- A port test. -/
theorem holds_query {cmd r : Byte} (h : ∀ s, c.command cmd s = s.respond r) :
    Holds c initial (ps2SendCommand cmd >>= fun _ => ps2ReadData) fun _ => True := by
  intro w hw
  obtain ⟨t, hrun, hbus, -⟩ := ConfigRam.run_query (h w.bus)
  refine ⟨r, t, hrun, ?_, trivial⟩
  rw [hbus]
  exact ⟨hw.kept, hw.target⟩

/-! ### `ps2_init` up to the reset of the ports -/

/-- The first lines, whatever the configuration was. -/
theorem run_ps2Disable_kept (w : World (ConfigRam.State δ)) :
    ∃ config t, ps2Disable.run (machine c.bus) w = (some config, t) ∧
      t.bus.config = config ∧ Held w.bus.config t.bus := by
  obtain ⟨t₁, hrun₁, hbus₁, -⟩ :=
    run_ps2SendCommand_ready (@ConfigRam.ready_bus δ c) CMD_DISABLE_PORT_0 w
  obtain ⟨t₂, hrun₂, hbus₂, -⟩ :=
    run_ps2SendCommand_ready (@ConfigRam.ready_bus δ c) CMD_DISABLE_PORT_1 t₁
  obtain ⟨t₃, hrun₃, -, -⟩ := ConfigRam.run_ps2GetConfig (c := c) (t₂.afterInb c.bus PORT_DATA)
  obtain ⟨t₄, hrun₄, hbus₄, -⟩ := ConfigRam.run_ps2SetConfig (c := c)
    (initialConfig t₂.bus.config) t₃
  have halike : Alike w.bus.config t₂.bus.config := by
    rw [hbus₂, hbus₁]
    exact (alike_clocks c CMD_DISABLE_PORT_0 w.bus.config).trans (alike_clocks c _ _)
  refine ⟨initialConfig t₂.bus.config, t₄, ?_, ?_, ?_⟩
  · unfold ps2Disable
    rw [Prog.run_bind_of_some _ hrun₁, Prog.run_bind_of_some _ hrun₂,
      Prog.run_bind_of_some _ (run_readByte ..), Prog.run_bind_of_some _ hrun₃]
    exact Prog.run_bind_of_some _ hrun₄
  · rw [hbus₄]
  · rw [hbus₄]
    exact ⟨kept_initialConfig halike, nofun⟩

/-- **The self-test**: the configuration before it is in force again. -/
theorem run_ps2TestController_kept (hself : c.selfTest = 0x55) {w : World (ConfigRam.State δ)}
    (hconfig : w.bus.config = config) (hw : Held initial w.bus) :
    ∃ t, (ps2TestController config).run (machine c.bus) w = (some true, t) ∧
      Held initial t.bus := by
  have htest : c.command CMD_TEST w.bus =
      ConfigRam.State.respond c.selfTest { w.bus with config := c.afterTest w.bus.config } := rfl
  obtain ⟨u, hrun, hbus, -⟩ := ConfigRam.run_query htest
  obtain ⟨v, hrun', hbus', -⟩ := ConfigRam.run_ps2GetConfig (c := c) u
  have hrestored : ∃ t, (onlyIf (u.bus.config ≠ config) (ps2SetConfig config)).run
      (machine c.bus) v = (some (), t) ∧ Held initial t.bus := by
    unfold onlyIf
    split_ifs with hnew
    · obtain ⟨t, hset, hbus'', -⟩ := ConfigRam.run_ps2SetConfig (c := c) config v
      refine ⟨t, hset, ?_⟩
      rw [hbus'']
      exact ⟨hconfig ▸ hw.kept, nofun⟩
    · refine ⟨v, rfl, ?_⟩
      rw [hbus']
      refine ⟨?_, ?_⟩
      · rw [of_not_not hnew, ← hconfig]
        exact hw.kept
      · rw [hbus]
        exact hw.target
  obtain ⟨t, hset, ht⟩ := hrestored
  refine ⟨t, ?_, ht⟩
  unfold ps2TestController
  rw [← Prog.bind_bind, Prog.run_bind_of_some _ hrun, hself]
  simp only [ne_eq, not_true_eq_false, if_false]
  rw [Prog.run_bind_of_some _ hrun', Prog.run_bind_of_some _ hset]
  rfl

/-- `ps2DetectChannels` holds them. -/
theorem holds_ps2DetectChannels : Holds c initial ps2DetectChannels fun _ => True := by
  refine (holds_ps2SendCommand (by decide)).bind fun _ _ => holds_ps2GetConfig.bind fun config hk =>
    (holds_modifyPs2 _).bind fun _ _ => holds_getKernel.bind fun k _ => holds_onlyIf _ ?_
  refine (holds_ps2SendCommand (by decide)).bind fun _ _ => holds_ps2SetConfig (hk.alike ?_)
  exact (alike_putBit (by decide) (by decide) config false).trans
    (alike_putBit (by decide) (by decide) _ false)

/-- A port test holds them. -/
theorem holds_testPort {cmd r : Byte} (h : ∀ s, c.command cmd s = s.respond r)
    (setFlag : Bool → Ps2Statics → Ps2Statics) (text : String) :
    Holds c initial (testPort cmd setFlag text) fun _ => True := by
  have hreport : ∀ resp, Holds c initial (modifyPs2 (setFlag (resp == 0)) >>= fun _ =>
      onlyIf (resp ≠ 0) (print text [] >>= fun _ => printPortErrorMsg resp)) fun _ => True :=
    fun resp => (holds_modifyPs2 _).bind fun _ _ => holds_onlyIf _ <|
      (holds_printMessage _).bind fun _ _ => holds_printMessage _
  have htest := (holds_query h).bind fun resp _ => hreport resp
  rwa [Prog.bind_bind] at htest

/-- `ps2TestPorts` holds them. -/
theorem holds_ps2TestPorts : Holds c initial ps2TestPorts fun _ => True := by
  have h0 : Holds c initial testPort0 fun _ => True :=
    holds_testPort (r := c.test .port0) (fun _ => rfl) _ _
  have h1 : Holds c initial testPort1 fun _ => True :=
    holds_testPort (r := c.test .port1) (fun _ => rfl) _ _
  exact h0.bind fun _ _ => holds_getKernel.bind fun _ _ => holds_onlyIf _ h1

/-- `ps2EnablePorts` holds them. -/
theorem holds_ps2EnablePorts : Holds c initial ps2EnablePorts fun _ => True :=
  holds_getKernel.bind fun _ _ =>
    (holds_onlyIf _ (holds_ps2SendCommand (by decide))).bind fun _ _ =>
    holds_onlyIf _ (holds_ps2SendCommand (by decide))

/-- `ps2EnableInterrupts` holds them. -/
theorem holds_ps2EnableInterrupts : Holds c initial ps2EnableInterrupts fun _ => True := by
  refine holds_ps2GetConfig.bind fun config hk => holds_getKernel.bind fun k _ =>
    holds_ps2SetConfig ?_
  have hput : ∀ (b : Bool) {i : ℕ} {config : Byte}, i < 8 →
      i ∉ PORT_0_TRANSLATION :: foreignBits → Kept initial config →
        Kept initial (if b = true then putBit config i true else config) := by
    intro b i config hi hown h
    split_ifs
    · exact h.alike (alike_putBit hi hown config true)
    · exact h
  exact hput _ (by decide) (by decide) (hput _ (by decide) (by decide) hk)

/-! ### The ports -/

/-- No byte is sent to the controller itself. -/
def Unconfigured : Event → Prop
  | .outb port d => port = PORT_COMMAND → d = CMD_WRITE_INPUT_PORT_1
  | _ => True

/-- The exchanges with devices write no configuration. -/
theorem types_unconfigured : Types Unconfigured fun _ _ => True where
  status _ := trivial
  data _ := trivial
  print _ _ := trivial
  drives _ :=
    { select := fun _ => ⟨⟨trivial, fun _ => trivial⟩, fun _ => rfl⟩
      write := fun _ h => absurd h (by decide)
      call := fun _ => ⟨trivial, fun _ => trivial⟩ }
  readData := ⟨trivial, fun _ => trivial⟩
  setScanCodes := ⟨trivial, fun _ => trivial⟩
  clearMask := stays_irqClearMask trivial trivial (fun _ => trivial) fun _ h =>
    absurd h (by decide)
  int := trivial
  kbd _ _ := trivial
  idt _ _ _ _ := trivial

/-- Starting a port writes no configuration. -/
theorem stays_startPort (L : Layout) (n : ℕ) (port : Port) :
    Stays Unconfigured (fun _ _ => True) (ps2StartPort L n port) := by
  refine stays_ps2StartPort types_unconfigured ?_ ?_ L n
  · cases port <;> exact fun _ _ => trivial
  · exact ⟨⟨trivial, fun _ => trivial⟩, ⟨trivial, fun _ => trivial⟩, fun _ _ => trivial⟩

/-- From `w` to `t` the configuration stays, unless the next byte is for it. -/
def SameConfig (w t : World (ConfigRam.State δ)) : Prop :=
  w.bus.target ≠ .config → t.bus.target ≠ .config ∧ t.bus.config = w.bus.config

theorem sameConfig_refl (w : World (ConfigRam.State δ)) : SameConfig w w := fun h => ⟨h, rfl⟩

theorem sameConfig_trans (w t u : World (ConfigRam.State δ)) (h : SameConfig w t)
    (h' : SameConfig t u) : SameConfig w u := by
  intro hw
  obtain ⟨ht, hwt⟩ := h hw
  obtain ⟨hu, htu⟩ := h' ht
  exact ⟨hu, htu.trans hwt⟩

/-- A byte for a device. -/
theorem data_device {s : ConfigRam.State δ} (h : s.target ≠ .config) (d : Byte) :
    (c.data d s).target ≠ .config ∧ (c.data d s).config = s.config := by
  unfold ConfigRam.data
  cases htarget : s.target with
  | config => exact absurd htarget h
  | device port => exact ⟨nofun, rfl⟩

/-- A read leaves the configuration. -/
theorem sameConfig_inb (port : Word) (s : ConfigRam.State δ) :
    (c.bus.inb port s).2.target = s.target ∧ (c.bus.inb port s).2.config = s.config := by
  unfold ConfigRam.bus
  dsimp only
  split_ifs <;> exact ⟨rfl, rfl⟩

/-- A write outside the configuration leaves it. -/
theorem sameConfig_outb {port : Word} {d : Byte} (hd : Unconfigured (.outb port d))
    {s : ConfigRam.State δ} (h : s.target ≠ .config) :
    (c.bus.outb port d s).target ≠ .config ∧ (c.bus.outb port d s).config = s.config := by
  unfold ConfigRam.bus
  dsimp only
  split_ifs with hcommand hdata
  · rw [hd hcommand]
    exact ⟨nofun, rfl⟩
  · exact data_device h d
  · exact ⟨h, rfl⟩

/-- One operation. -/
theorem sameConfig_step {o : Op} (ho : o.Within Unconfigured fun _ _ => True)
    (w : World (ConfigRam.State δ)) : SameConfig w (machine c.bus o w).2 := by
  intro h
  cases o with
  | readByte port =>
    obtain ⟨htarget, hconfig⟩ := sameConfig_inb (c := c) port w.bus
    exact ⟨fun he => h (htarget.symm.trans he), hconfig⟩
  | writeByte port d => exact sameConfig_outb ho h
  | _ => exact ⟨h, rfl⟩

/-! ### The whole run -/

/-- The bits are kept where a port is reset and where the run returns, also when it gives
up because no port works. -/
structure ConfigKept (c : ConfigRam δ) (L : Layout) (w : World (ConfigRam.State δ)) : Prop where
  reset : ∀ n port u, ((.enter (.resetPort port) : Op), u) ∈ (ps2Init L n).asked (machine c.bus) w →
    Kept w.bus.config u.bus.config
  returned : ∀ n t, (ps2Init L n).run (machine c.bus) w = (some (), t) →
    Kept w.bus.config t.bus.config

/-- Where a port is reset, the bits are kept. -/
def ResetKept (initial : Byte) (o : Op) (u : World (ConfigRam.State δ)) : Prop :=
  ∀ port, o = .enter (.resetPort port) → Kept initial u.bus.config

/-- The exchanges with the controller reset no port. -/
theorem talks_unreset : Talks Unreset where
  status _ := trivial
  data _ := trivial
  print _ _ := trivial
  write _ := trivial
  readData := ⟨trivial, fun _ => trivial⟩
  getConfig := ⟨trivial, fun _ => trivial⟩
  setConfig _ := ⟨trivial, fun _ => trivial⟩

theorem sends_unreset (command : Byte) : Sends Unreset command :=
  ⟨⟨trivial, fun _ => trivial⟩, trivial⟩

/-- Code without a reset never comes where the bits have to be kept. -/
theorem resetKept_of_unreset {o : Op} (u : World (ConfigRam.State δ))
    (h : o.Within Unreset fun _ _ => True) : ResetKept initial o u := by
  rintro port rfl
  exact absurd h id

variable {w : World (ConfigRam.State δ)} {Q : α → Prop} {R : α → World (ConfigRam.State δ) → Prop}

/-- Code that resets no port. -/
theorem Holds.safe {p : Kern α} (hp : Holds c initial p Q)
    (hs : Stays Unreset (fun _ _ => True) p) (hw : Held initial w.bus)
    (h : ∀ a t, Held initial t.bus → R a t) :
    Prog.Safe (machine c.bus) (ResetKept initial) R p w := by
  obtain ⟨a, t, hrun, ht, -⟩ := hp w hw
  exact Prog.safe_of_run hs (fun _ u ho => resetKept_of_unreset u ho) hrun (h a t ht)

/-- Starting the driver of a port. -/
theorem safe_ps2StartPort (L : Layout) (n : ℕ) (port : Port) (hw : Held initial w.bus) :
    Prog.Safe (machine c.bus) (ResetKept initial) (fun _ t => Held initial t.bus)
      (ps2StartPort L n port) w := by
  have hheld : ∀ t, SameConfig w t → Held initial t.bus := by
    intro t ht
    obtain ⟨htarget, hconfig⟩ := ht hw.target
    refine ⟨?_, htarget⟩
    rw [hconfig]
    exact hw.kept
  exact Prog.safe_of_always sameConfig_refl sameConfig_trans
    (fun _ _ ho => sameConfig_step ho _) (stays_startPort L n port)
    (fun _ t ht _ _ => (hheld t ht).kept) fun _ t ht => hheld t ht

/-- **Every run of `ps2_init`.** -/
theorem safe_ps2Init (hself : c.selfTest = 0x55) (L : Layout) (n : ℕ)
    (w : World (ConfigRam.State δ)) :
    Prog.Safe (machine c.bus) (ResetKept w.bus.config)
      (fun _ t => Kept w.bus.config t.bus.config) (ps2Init L n) w := by
  have hfree : ∀ o (u : World (ConfigRam.State δ)), o.Within Unreset (fun _ _ => True) →
      ResetKept w.bus.config o u := fun _ u ho => resetKept_of_unreset u ho
  have hassigns : AssignsPs2 fun _ _ => True := fun _ _ _ => trivial
  obtain ⟨config, t, hrun, hconfig, ht⟩ := run_ps2Disable_kept (c := c) w
  obtain ⟨u, hrun', hu⟩ := run_ps2TestController_kept hself hconfig ht
  refine Prog.Safe.bind (Prog.safe_of_run
    (stays_ps2Disable talks_unreset fun _ _ => sends_unreset _) hfree hrun ?_)
  refine Prog.Safe.bind (Prog.safe_of_run
    (stays_ps2TestController talks_unreset (fun _ _ => sends_unreset _) config) hfree hrun' ?_)
  simp only [if_true]
  -- the self-test has passed; every part from here on starts where the bits are kept
  refine Prog.Safe.bind (holds_ps2DetectChannels.safe
    (stays_ps2DetectChannels talks_unreset (fun _ _ => sends_unreset _) hassigns) hu
    fun _ t₁ h₁ => ?_)
  refine Prog.Safe.bind (holds_ps2TestPorts.safe
    (stays_ps2TestPorts talks_unreset (fun _ _ => sends_unreset _) hassigns) h₁ fun _ t₂ h₂ => ?_)
  refine Prog.Safe.bind (holds_getKernel.safe stays_getKernel h₂ fun k t₃ h₃ => ?_)
  refine Prog.Safe.ite (fun _ => ?_) fun _ => ?_
  · exact (holds_printMessage _).safe (stays_printMessage trivial) h₃ fun _ _ h => h.kept
  refine Prog.Safe.bind (holds_ps2EnablePorts.safe
    (stays_ps2EnablePorts talks_unreset.toPolls fun _ _ => sends_unreset _) h₃ fun _ t₄ h₄ => ?_)
  refine Prog.Safe.bind (holds_ps2EnableInterrupts.safe
    (stays_ps2EnableInterrupts talks_unreset fun _ _ => sends_unreset _) h₄ fun _ t₅ h₅ => ?_)
  refine Prog.Safe.bind ((safe_ps2StartPort L n .port0 h₅).post fun _ t₆ h₆ => ?_)
  exact (safe_ps2StartPort L n .port1 h₆).post fun _ _ h => h.kept

/-- **The configuration bits that are not the driver's survive `ps2_init`**, whatever the
configuration was, whatever the self-test makes of it and whatever the port tests say. -/
theorem ps2Init_configKept (c : ConfigRam δ) (hself : c.selfTest = 0x55) (L : Layout)
    (w : World (ConfigRam.State δ)) : ConfigKept c L w where
  reset n port _ hasked := (safe_ps2Init hself L n w).1 _ hasked port rfl
  returned n t hrun := (safe_ps2Init hself L n w).2 () t hrun

/-- A controller with two ports and nothing behind them, whose self-test clears the
configuration. -/
def forgetful : ConfigRam Unit where
  clocks cmd config :=
    if cmd = CMD_DISABLE_PORT_0 then putBit config CLOCK_0 true
    else if cmd = CMD_ENABLE_PORT_0 then putBit config CLOCK_0 false
    else if cmd = CMD_DISABLE_PORT_1 then putBit config CLOCK_1 true
    else putBit config CLOCK_1 false
  clocks_bit cmd config i h0 h1 := by
    have hput : ∀ b, (putBit config CLOCK_0 b).getLsbD i = config.getLsbD i := fun b => by
      rw [getLsbD_putBit config (by decide), if_neg h0]
    have hput' : ∀ b, (putBit config CLOCK_1 b).getLsbD i = config.getLsbD i := fun b => by
      rw [getLsbD_putBit config (by decide), if_neg h1]
    split_ifs
    · exact hput true
    · exact hput false
    · exact hput' true
    · exact hput' false
  selfTest := 0x55
  afterTest _ := 0
  test _ := 0
  answer _ _ _ := ([], ())

/-- The machine with this controller; the system flag and the translation are set. -/
def beforePs2 : World (ConfigRam.State Unit) :=
  .boot ⟨0x45, .device .port0, [], ()⟩ emptyIdt fun _ => 0

/-- A controller that forgets its configuration in the self-test gets it back. -/
theorem ps2Init_configKept_forgetful : ConfigKept forgetful Layout.sample beforePs2 :=
  ps2Init_configKept forgetful rfl Layout.sample beforePs2

end Ps2
end DrewOS
