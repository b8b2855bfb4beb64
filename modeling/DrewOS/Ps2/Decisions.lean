/-
# The three decisions of the initialisation

`ps2_init` sets three flags from answers of the controller: whether each port has
passed its test, and whether there is a second port.  A decision is a command
(and, for the second port, the command that reads the configuration), an answer
and the flag it sets; the rest of the initialisation calls none of the commands
and leaves the flags alone.
-/

import DrewOS.Ps2.Frame

namespace DrewOS

open ByteMem Effect

namespace Ps2

/-- The flags that `ps2_init` sets from answers. -/
inductive Decision where
  | port0 | port1 | dual
  deriving DecidableEq

namespace Decision

/-- The flag that is set. -/
def flag (p : Ps2Statics) : Decision → Bool
  | .port0 => p.port0Operational
  | .port1 => p.port1Operational
  | .dual => p.dualChannel

/-- Set the flag. -/
def set (b : Bool) (p : Ps2Statics) : Decision → Ps2Statics
  | .port0 => { p with port0Operational := b }
  | .port1 => { p with port1Operational := b }
  | .dual => { p with dualChannel := b }

/-- The command that the decision starts with. -/
def command : Decision → Byte
  | .port0 => CMD_TEST_PORT_0
  | .port1 => CMD_TEST_PORT_1
  | .dual => CMD_ENABLE_PORT_1

/-- The commands after it: reading the configuration. -/
def more : Decision → List Byte
  | .dual => [CMD_READ_RAM]
  | _ => []

/-- The answers that set the flag. -/
def success : Decision → Byte → Bool
  | .dual => fun config => !config.getLsbD CLOCK_1
  | _ => fun resp => resp == 0

/-- An answer of zero is a success. -/
theorem success_zero (d : Decision) : d.success 0 = true := by
  cases d <;> decide

/-- The flag has the value set. -/
theorem flag_set (d : Decision) (b : Bool) (p : Ps2Statics) : d.flag (d.set b p) = b := by
  cases d <;> rfl

/-- Another flag stays. -/
theorem flag_set_of_ne {d d' : Decision} (h : d' ≠ d) (b : Bool) (p : Ps2Statics) :
    d'.flag (d.set b p) = d'.flag p := by
  cases d <;> cases d' <;> first | rfl | exact absurd rfl h

end Decision

/-- The flags are the same. -/
def SameFlags (k k' : Kernel) : Prop := ∀ d : Decision, d.flag k'.ps2 = d.flag k.ps2

theorem sameFlags_refl (k : Kernel) : SameFlags k k := fun _ => rfl

theorem sameFlags_trans (k k' k'' : Kernel) (h : SameFlags k k') (h' : SameFlags k' k'') :
    SameFlags k k'' :=
  fun d => (h' d).trans (h d)

/-- Assigning an identity leaves the flags. -/
theorem assignsIds_sameFlags (port : Port) : AssignsIds SameFlags port := by
  cases port <;> exact fun k id d => by cases d <;> rfl

/-- The first commands of the decisions. -/
def decisionCommands : List Byte := [CMD_ENABLE_PORT_1, CMD_TEST_PORT_0, CMD_TEST_PORT_1]

/-- The command of a decision is among those of all decisions. -/
theorem command_mem (d : Decision) : d.command ∈ decisionCommands := by
  cases d <;> decide

/-- Each decision has its own command. -/
theorem command_injective {d d' : Decision} (h : d.command = d'.command) : d = d' := by
  revert h
  cases d <;> cases d' <;> decide

/-- No call with one of `commands`, and none of them written. -/
def Avoids (commands : List Byte) : Event → Prop
  | .enter (.sendCommand c) => c ∉ commands
  | .outb port c => port = PORT_COMMAND → c ∉ commands
  | _ => True

/-- What is common to all exchanges is no decision. -/
theorem talks_avoids (commands : List Byte) : Talks (Avoids commands) where
  status _ := trivial
  data _ := trivial
  print _ _ := trivial
  write _ := fun h => absurd h (by decide)
  readData := ⟨trivial, fun _ => trivial⟩
  getConfig := ⟨trivial, fun _ => trivial⟩
  setConfig _ := ⟨trivial, fun _ => trivial⟩

/-- Other commands decide nothing. -/
theorem sends_avoids {commands : List Byte} {c : Byte} (h : c ∉ commands) :
    Sends (Avoids commands) c :=
  ⟨⟨h, fun _ => trivial⟩, fun _ => h⟩

/-- Up to the test of the controller there is nothing to decide. -/
theorem stays_begin_avoids : Stays (Avoids decisionCommands) SameFlags
    (ps2Disable >>= fun config => ps2TestController config) :=
  stays_begin (talks_avoids _) fun c hc => sends_avoids (by
    revert c
    decide)

theorem Avoids.mono {cs cs' : List Byte} (h : cs ⊆ cs') {e : Event} (he : Avoids cs' e) :
    Avoids cs e := by
  cases e with
  | enter f =>
    cases f with
    | sendCommand c => exact fun hc => he (h hc)
    | _ => trivial
  | outb port c => exact fun hp hc => he hp (h hc)
  | _ => trivial

end Ps2
end DrewOS
