/-
# The pair of 8259A interrupt controllers

A model of the two chips behind ports `0x20`/`0x21` and `0xa0`/`0xa1`, as far as
their masks are concerned.  ICW1, a command with bit 4, clears the mask and
starts the initialisation: the bytes written to the data port after it are ICW2
(the vector offset), ICW3 unless ICW1 says that there is one chip only, and ICW4
if ICW1 announces it.  Any other byte written to the data port is the mask.

The rest of the machine is any bus.  It answers what the chips' requests decide,
reads of the command ports, too: no read changes a mask.
-/

import DrewOS.Kernel.Pic

namespace DrewOS

open ByteMem Effect

namespace I8259

/-- What the next byte written to the data port is. -/
inductive Stage where
  | mask | icw2 | icw3 | icw4
  deriving DecidableEq

/-- One chip: its mask, its vector offset, what it waits for, and bits 1 and 0 of
the last ICW1. -/
structure Chip where
  imr : Byte
  offset : Byte
  stage : Stage
  single : Bool
  announced : Bool

/-- A chip as the firmware leaves it. -/
def Chip.firmware (mask offset : Byte) : Chip := ⟨mask, offset, .mask, false, true⟩

/-- A byte written to the command port. -/
def Chip.command (d : Byte) (c : Chip) : Chip :=
  if d.getLsbD 4 then
    { c with imr := 0, stage := .icw2, single := d.getLsbD 1, announced := d.getLsbD 0 }
  else c

/-- What follows the wiring, and what follows the vector offset. -/
def Chip.afterIcw3 (c : Chip) : Stage := if c.announced then .icw4 else .mask

def Chip.afterIcw2 (c : Chip) : Stage := if c.single then c.afterIcw3 else .icw3

/-- A byte written to the data port. -/
def Chip.data (d : Byte) (c : Chip) : Chip :=
  match c.stage with
  | .mask => { c with imr := d }
  | .icw2 => { c with offset := d, stage := c.afterIcw2 }
  | .icw3 => { c with stage := c.afterIcw3 }
  | .icw4 => { c with stage := .mask }

/-- The two chips and the rest of the machine. -/
structure State (ρ : Type) where
  master : Chip
  slave : Chip
  rest : ρ

variable {ρ : Type} (rest : Bus ρ)

/-- The chips at their ports. -/
def bus : Bus (State ρ) where
  inb port s :=
    if port = PIC_MASTER_DATA then (s.master.imr, s)
    else if port = PIC_SLAVE_DATA then (s.slave.imr, s)
    else ((rest.inb port s.rest).1, { s with rest := (rest.inb port s.rest).2 })
  inw port s := ((rest.inw port s.rest).1, { s with rest := (rest.inw port s.rest).2 })
  outb port d s :=
    if port = PIC_MASTER_COMMAND then { s with master := s.master.command d }
    else if port = PIC_MASTER_DATA then { s with master := s.master.data d }
    else if port = PIC_SLAVE_COMMAND then { s with slave := s.slave.command d }
    else if port = PIC_SLAVE_DATA then { s with slave := s.slave.data d }
    else { s with rest := rest.outb port d s.rest }

/-- The mask of the chip that has the line. -/
def State.imr (s : State ρ) (line : Byte) : Byte :=
  if line.toNat < 8 then s.master.imr else s.slave.imr

/-- An IRQ line that its chip lets through. -/
def State.Unmasked (s : State ρ) (line : Byte) : Prop :=
  (s.imr line).getLsbD (line.toNat % 8) = false

/-- The ports of the two chips. -/
def ports : List Word :=
  [PIC_MASTER_COMMAND, PIC_MASTER_DATA, PIC_SLAVE_COMMAND, PIC_SLAVE_DATA]

/-- Both chips take masks at their data ports, and mask every line. -/
structure State.Closed (s : State ρ) : Prop where
  master : s.master.imr = 0xff ∧ s.master.stage = .mask
  slave : s.slave.imr = 0xff ∧ s.slave.stage = .mask

/-- A closed controller lets no line through. -/
theorem State.Closed.not_unmasked {s : State ρ} (h : s.Closed) (line : Byte) :
    ¬ s.Unmasked line := by
  have himr : s.imr line = 0xff := by
    unfold State.imr
    split_ifs
    · exact h.master.1
    · exact h.slave.1
  have hbit : ∀ i < 8, (0xff : Byte).getLsbD i = true := by decide
  intro hu
  rw [State.Unmasked, himr, hbit _ (Nat.mod_lt _ (by decide))] at hu
  exact absurd hu (by decide)

/-- A mask that masks every line is `0xff`. -/
theorem imr_eq_of_masked {imr : Byte} (h : ∀ i < 8, imr.getLsbD i = true) : imr = 0xff := by
  refine BitVec.eq_of_getLsbD_eq fun i hi => ?_
  have hbit : ∀ i < 8, (0xff : Byte).getLsbD i = true := by decide
  rw [h i hi, hbit i hi]

/-- **No line is unmasked only when both masks are `0xff`.** -/
theorem masks_eq_of_masked {s : State ρ} (h : ∀ line : Byte, line.toNat < 16 → ¬ s.Unmasked line) :
    s.master.imr = 0xff ∧ s.slave.imr = 0xff := by
  have hline : ∀ k < 16, (s.imr (BitVec.ofNat 8 k)).getLsbD (k % 8) = true := by
    intro k hk
    have hn : (BitVec.ofNat 8 k).toNat = k := by
      rw [BitVec.toNat_ofNat]
      omega
    have hmasked := h (BitVec.ofNat 8 k) (by omega)
    rw [State.Unmasked, hn] at hmasked
    simpa using hmasked
  constructor
  · refine imr_eq_of_masked fun i hi => ?_
    have hi' := hline i (by omega)
    rwa [State.imr, if_pos (by rw [BitVec.toNat_ofNat]; omega), Nat.mod_eq_of_lt hi] at hi'
  · refine imr_eq_of_masked fun i hi => ?_
    have hi' := hline (i + 8) (by omega)
    rwa [State.imr, if_neg (by rw [BitVec.toNat_ofNat]; omega), Nat.add_mod_right,
      Nat.mod_eq_of_lt hi] at hi'

/-! ### What changes the chips -/

/-- A byte written to a port that is not the chips' leaves them alone. -/
theorem outb_of_not_mem {port : Word} (h : port ∉ ports) (d : Byte) (s : State ρ) :
    (bus rest).outb port d s = { s with rest := rest.outb port d s.rest } := by
  simp only [ports, List.mem_cons, List.not_mem_nil, or_false, not_or] at h
  obtain ⟨h0, h1, h2, h3⟩ := h
  simp only [bus, if_neg h0, if_neg h1, if_neg h2, if_neg h3]

/-- A read leaves the chips alone. -/
theorem inb_chips (port : Word) (s : State ρ) :
    ((bus rest).inb port s).2.master = s.master ∧ ((bus rest).inb port s).2.slave = s.slave := by
  simp only [bus]
  split_ifs
  · exact ⟨rfl, rfl⟩
  · exact ⟨rfl, rfl⟩
  · exact ⟨rfl, rfl⟩

/-- A write that leaves closed chips closed: no ICW1, and no mask but `0xff`. -/
def Harmless (port : Word) (d : Byte) : Prop :=
  (port = PIC_MASTER_COMMAND ∨ port = PIC_SLAVE_COMMAND → d.getLsbD 4 = false) ∧
    (port = PIC_MASTER_DATA ∨ port = PIC_SLAVE_DATA → d = 0xff)

/-- Only the four ports of the chips matter. -/
theorem harmless_of_not_mem {port : Word} (h : port ∉ ports) (d : Byte) : Harmless port d := by
  simp only [ports, List.mem_cons, List.not_mem_nil, or_false, not_or] at h
  obtain ⟨h0, h1, h2, h3⟩ := h
  exact ⟨fun hp => absurd hp (not_or.2 ⟨h0, h2⟩), fun hp => absurd hp (not_or.2 ⟨h1, h3⟩)⟩

/-- To a command port, everything but an initialisation is harmless. -/
theorem harmless_command {port : Word} (h : port = PIC_MASTER_COMMAND ∨ port = PIC_SLAVE_COMMAND)
    (d : Byte) : Harmless port d ↔ d.getLsbD 4 = false := by
  refine ⟨fun hd => hd.1 h, fun hd => ⟨fun _ => hd, fun h' => ?_⟩⟩
  rcases h with rfl | rfl
  · exact absurd h' (by decide)
  · exact absurd h' (by decide)

/-- To a data port, only the full mask is harmless. -/
theorem harmless_data {port : Word} (h : port = PIC_MASTER_DATA ∨ port = PIC_SLAVE_DATA)
    (d : Byte) : Harmless port d ↔ d = 0xff := by
  refine ⟨fun hd => hd.2 h, fun hd => ⟨fun h' => ?_, fun _ => hd⟩⟩
  rcases h with rfl | rfl
  · exact absurd h' (by decide)
  · exact absurd h' (by decide)

/-- A chip that masks every line and is told something else. -/
theorem command_closed {c : Chip} (h : c.imr = 0xff ∧ c.stage = .mask) (d : Byte) :
    (d.getLsbD 4 = false → (c.command d).imr = 0xff ∧ (c.command d).stage = .mask) ∧
      (d.getLsbD 4 ≠ false → (c.command d).imr ≠ 0xff) := by
  constructor
  · intro hd
    rw [Chip.command, hd, if_neg Bool.false_ne_true]
    exact h
  · intro hd
    rw [Chip.command, if_pos (Bool.eq_true_of_not_eq_false hd)]
    show (0 : Byte) ≠ 0xff
    decide

/-- Behind its initialisation a chip takes what it is sent for its mask. -/
theorem data_closed {c : Chip} (h : c.imr = 0xff ∧ c.stage = .mask) (d : Byte) :
    (c.data d).imr = d ∧ (c.data d).stage = .mask := by
  rw [Chip.data, h.2]
  exact ⟨rfl, rfl⟩

/-- **A write leaves closed chips closed just when it is harmless**: one that is not
harmless leaves a mask that is not `0xff`. -/
theorem State.Closed.outb {s : State ρ} (h : s.Closed) (port : Word) (d : Byte) :
    (Harmless port d → ((bus rest).outb port d s).Closed) ∧
      (¬ Harmless port d → ¬ (((bus rest).outb port d s).master.imr = 0xff ∧
        ((bus rest).outb port d s).slave.imr = 0xff)) := by
  by_cases hmem : port ∈ ports
  · simp only [ports, List.mem_cons, List.not_mem_nil, or_false] at hmem
    rcases hmem with rfl | rfl | rfl | rfl
    · rw [harmless_command (.inl rfl)]
      obtain ⟨hkeep, hlose⟩ := command_closed h.master d
      exact ⟨fun hd => ⟨hkeep hd, h.slave⟩, fun hd hm => hlose hd hm.1⟩
    · rw [harmless_data (.inl rfl)]
      obtain ⟨himr, hstage⟩ := data_closed h.master d
      exact ⟨fun hd => ⟨⟨himr.trans hd, hstage⟩, h.slave⟩, fun hd hm => hd (himr.symm.trans hm.1)⟩
    · rw [harmless_command (.inr rfl)]
      obtain ⟨hkeep, hlose⟩ := command_closed h.slave d
      exact ⟨fun hd => ⟨h.master, hkeep hd⟩, fun hd hm => hlose hd hm.2⟩
    · rw [harmless_data (.inr rfl)]
      obtain ⟨himr, hstage⟩ := data_closed h.slave d
      exact ⟨fun hd => ⟨h.master, himr.trans hd, hstage⟩, fun hd hm => hd (himr.symm.trans hm.2)⟩
  · rw [outb_of_not_mem rest hmem]
    exact ⟨fun _ => ⟨h.master, h.slave⟩, fun hd => absurd (harmless_of_not_mem hmem d) hd⟩

/-! ### The driver's initialisation -/

/-- A chip that `pic_remap` has initialised: the mask is as it was. -/
def Chip.remapped (offset : Byte) (c : Chip) : Chip := ⟨c.imr, offset, .mask, false, true⟩

/-- **`pic_remap` gives both chips their offsets and restores the masks** that it found. -/
theorem run_picRemap (offset1 offset2 : Byte) (w : World (State ρ)) :
    ∃ t, (picRemap offset1 offset2).run (machine (bus rest)) w = (some (), t) ∧
      t.bus.master = w.bus.master.remapped offset1 ∧ t.bus.slave = w.bus.slave.remapped offset2 ∧
      t.kernel = { w.kernel with pic := ⟨offset1, offset2⟩ } ∧ t.iflag = w.iflag :=
  ⟨_, rfl, rfl, rfl, rfl, rfl⟩

end I8259
end DrewOS
