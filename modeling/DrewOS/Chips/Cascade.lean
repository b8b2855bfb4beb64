/-
# Two chips, one controller

The two 8259A chips with their request and in-service registers, and the
controller with 16 lines that they are for the driver: line `l` is line `l` of
the master for `l < 8` and line `l - 8` of the slave otherwise.
`State.controller` is what the chips stand for, and `pic_refines` says that every
call of the driver does to them what the call means for the controller.

Devices raise lines and the processor takes interrupts between two calls; the
step `settle` sets both registers to anything.
-/

import DrewOS.Chips.I8259
import Mathlib.Data.Set.Basic

namespace DrewOS
namespace Cascade

open ByteMem Effect

/-! ### Registers as sets of lines -/

/-- A line of the pair. -/
abbrev Line : Type := Fin 16

/-- The lines whose bits are set, those of the slave in the high byte. -/
def lines (w : Word) : Set Line := {l | w.getLsbD l.val = true}

/-- The register without the bit of its highest priority, the lowest one. -/
def acknowledged (r : Byte) : Byte := r &&& (r - 1)

/-- The lines of the master. -/
def masterLines : Set Line := {l | l.val < 8}

/-- The lines of the slave. -/
def slaveLines : Set Line := {l | 8 ≤ l.val}

/-- `s` without the line of the highest priority among those in `p`. -/
def served (p s : Set Line) : Set Line := {l ∈ s | l ∈ p → ∃ k ∈ s, k ∈ p ∧ k < l}

variable {hi lo : Byte} {l : Line}

/-- A line is in the set if its bit is set in the byte of its chip. -/
theorem mem_lines : l ∈ lines (hi ++ lo) ↔
    (if l.val < 8 then lo.getLsbD l.val else hi.getLsbD (l.val - 8)) = true := by
  show (hi ++ lo).getLsbD l.val = true ↔ _
  rw [BitVec.getLsbD_append]

/-- A line of the master. -/
theorem mem_lines_master (h : l.val < 8) : l ∈ lines (hi ++ lo) ↔ lo.getLsbD l.val = true := by
  rw [mem_lines, if_pos h]

/-- A line of the slave. -/
theorem mem_lines_slave (h : ¬ l.val < 8) :
    l ∈ lines (hi ++ lo) ↔ hi.getLsbD (l.val - 8) = true := by
  rw [mem_lines, if_neg h]

/-- A shifted one has exactly that bit. -/
theorem getLsbD_bit {k i : ℕ} (hk : k < 8) : (1#8 <<< k).getLsbD i = decide (k = i) := by
  rw [← BitVec.twoPow_eq, BitVec.getLsbD_twoPow, decide_eq_true hk, Bool.true_and]

/-- An unspecific EOI clears the lowest bit that is set. -/
theorem getLsbD_acknowledged (r : Byte) {i : ℕ} (hi : i < 8) :
    (acknowledged r).getLsbD i = true ↔ r.getLsbD i = true ∧ ∃ j < i, r.getLsbD j = true := by
  have hall : ∀ (r : Byte), ∀ i < 8, (acknowledged r).getLsbD i = true ↔
      r.getLsbD i = true ∧ ∃ j < i, r.getLsbD j = true := by decide +kernel
  exact hall r i hi

/-- Set the bit of a line of the master, of the slave. -/
theorem lines_set_master {k : ℕ} (hk : k < 8) :
    lines (hi ++ (lo ||| 1#8 <<< k)) = {l | l ∈ lines (hi ++ lo) ∨ l.val = k} := by
  ext l
  show l ∈ lines _ ↔ l ∈ lines _ ∨ l.val = k
  by_cases hl : l.val < 8
  · rw [mem_lines_master hl, mem_lines_master hl, BitVec.getLsbD_or, getLsbD_bit hk,
      Bool.or_eq_true, decide_eq_true_iff]
    exact or_congr_right eq_comm
  · have hne : l.val ≠ k := by omega
    rw [mem_lines_slave hl, mem_lines_slave hl, or_iff_left hne]

/-- Setting a bit of the slave adds its line. -/
theorem lines_set_slave {k : ℕ} (hk : k < 8) :
    lines ((hi ||| 1#8 <<< k) ++ lo) = {l | l ∈ lines (hi ++ lo) ∨ l.val = k + 8} := by
  ext l
  show l ∈ lines _ ↔ l ∈ lines _ ∨ l.val = k + 8
  by_cases hl : l.val < 8
  · have hne : l.val ≠ k + 8 := by omega
    rw [mem_lines_master hl, mem_lines_master hl, or_iff_left hne]
  · have hline : k = l.val - 8 ↔ l.val = k + 8 := by omega
    rw [mem_lines_slave hl, mem_lines_slave hl, BitVec.getLsbD_or, getLsbD_bit hk,
      Bool.or_eq_true, decide_eq_true_iff, hline]

/-- Clearing a bit leaves the others. -/
theorem getLsbD_clear {r : Byte} {k i : ℕ} (hk : k < 8) (hi : i < 8) :
    (r &&& ~~~(1#8 <<< k)).getLsbD i = true ↔ r.getLsbD i = true ∧ i ≠ k := by
  rw [BitVec.getLsbD_and, BitVec.getLsbD_not, getLsbD_bit hk, decide_eq_true hi, Bool.true_and,
    Bool.and_eq_true, Bool.not_eq_true', decide_eq_false_iff_not]
  exact and_congr_right fun _ => ne_comm

/-- Clear it. -/
theorem lines_clear_master {k : ℕ} (hk : k < 8) :
    lines (hi ++ (lo &&& ~~~(1#8 <<< k))) = {l | l ∈ lines (hi ++ lo) ∧ l.val ≠ k} := by
  ext l
  show l ∈ lines _ ↔ l ∈ lines _ ∧ l.val ≠ k
  by_cases hl : l.val < 8
  · rw [mem_lines_master hl, mem_lines_master hl, getLsbD_clear hk hl]
  · have hne : l.val ≠ k := by omega
    rw [mem_lines_slave hl, mem_lines_slave hl, and_iff_left hne]

/-- Clearing a bit of the slave removes its line. -/
theorem lines_clear_slave {k : ℕ} (hk : k < 8) :
    lines ((hi &&& ~~~(1#8 <<< k)) ++ lo) = {l | l ∈ lines (hi ++ lo) ∧ l.val ≠ k + 8} := by
  ext l
  show l ∈ lines _ ↔ l ∈ lines _ ∧ l.val ≠ k + 8
  by_cases hl : l.val < 8
  · have hne : l.val ≠ k + 8 := by omega
    rw [mem_lines_master hl, mem_lines_master hl, and_iff_left hne]
  · have hline : l.val - 8 ≠ k ↔ l.val ≠ k + 8 := by omega
    rw [mem_lines_slave hl, mem_lines_slave hl, getLsbD_clear hk (by omega), hline]

/-- The full mask has all lines. -/
theorem lines_full : lines ((0xff : Byte) ++ (0xff : Byte)) = Set.univ := by
  have hbit : ∀ i < 16, ((0xff : Byte) ++ (0xff : Byte)).getLsbD i = true := by decide
  exact Set.eq_univ_of_forall fun l => hbit l.val l.isLt

/-- Acknowledge the line of the highest priority of the master, of the slave. -/
theorem lines_acknowledged_master :
    lines (hi ++ acknowledged lo) = served masterLines (lines (hi ++ lo)) := by
  ext l
  show l ∈ lines _ ↔ l ∈ lines _ ∧ (l.val < 8 → ∃ k ∈ lines _, k.val < 8 ∧ k.val < l.val)
  by_cases hl : l.val < 8
  · rw [mem_lines_master hl, mem_lines_master hl, getLsbD_acknowledged lo hl]
    refine and_congr_right fun _ => ⟨?_, ?_⟩
    · rintro ⟨j, hj, hbit⟩ -
      have hj8 : j < 8 := hj.trans hl
      exact ⟨⟨j, by omega⟩, (mem_lines_master hj8).2 hbit, hj8, hj⟩
    · intro h
      obtain ⟨k, hk, hk8, hkl⟩ := h hl
      exact ⟨k.val, hkl, (mem_lines_master hk8).1 hk⟩
  · rw [mem_lines_slave hl, mem_lines_slave hl]
    exact ⟨fun h => ⟨h, fun h8 => absurd h8 hl⟩, fun h => h.1⟩

/-- An EOI to the slave serves the slave's lines only. -/
theorem lines_acknowledged_slave :
    lines (acknowledged hi ++ lo) = served slaveLines (lines (hi ++ lo)) := by
  ext l
  show l ∈ lines _ ↔ l ∈ lines _ ∧ (8 ≤ l.val → ∃ k ∈ lines _, 8 ≤ k.val ∧ k.val < l.val)
  by_cases hl : l.val < 8
  · rw [mem_lines_master hl, mem_lines_master hl]
    exact ⟨fun h => ⟨h, fun h8 => absurd hl (Nat.not_lt.2 h8)⟩, fun h => h.1⟩
  · rw [mem_lines_slave hl, mem_lines_slave hl, getLsbD_acknowledged hi (by omega)]
    refine and_congr_right fun _ => ⟨?_, ?_⟩
    · rintro ⟨j, hj, hbit⟩ -
      have hj8 : ¬ j + 8 < 8 := by omega
      refine ⟨⟨j + 8, by omega⟩, (mem_lines_slave hj8).2 ?_, Nat.not_lt.1 hj8, ?_⟩
      · exact hbit
      · show j + 8 < l.val
        omega
    · intro h
      obtain ⟨k, hk, hk8, hkl⟩ := h (Nat.not_lt.1 hl)
      exact ⟨k.val - 8, by omega, (mem_lines_slave (Nat.not_lt.2 hk8)).1 hk⟩

/-! ### The chips -/

/-- One chip: its mask and initialisation, its request and in-service registers, and
which of the two a read of the command port returns. -/
structure Chip where
  control : I8259.Chip
  irr : Byte
  isr : Byte
  readsIsr : Bool

/-- A byte written to the command port: ICW1 with bit 4, OCW3 with bit 3 only, OCW2
with neither.  Of OCW2 there is the non-specific end of interrupt; with it, and
without rotation, the lowest line has the highest priority. -/
def Chip.command (d : Byte) (c : Chip) : Chip :=
  if d.getLsbD 4 then { c with control := c.control.command d, readsIsr := false }
  else if d.getLsbD 3 then
    if d.getLsbD 1 then { c with readsIsr := d.getLsbD 0 } else c
  else if d >>> 5 = 1 then { c with isr := acknowledged c.isr }
  else c

/-- A byte written to the data port. -/
def Chip.data (d : Byte) (c : Chip) : Chip := { c with control := c.control.data d }

/-- The byte read from the command port. -/
def Chip.status (c : Chip) : Byte := if c.readsIsr then c.isr else c.irr

/-- The vector delivered for the line. -/
def Chip.vector (c : Chip) (line : ℕ) : Byte := (c.control.offset &&& 0xf8) + BitVec.ofNat 8 line

/-- The two chips and the rest of the machine. -/
structure State (ρ : Type) where
  master : Chip
  slave : Chip
  rest : ρ

variable {ρ : Type} (rest : Bus ρ)

/-- The chips at their ports. -/
def bus : Bus (State ρ) where
  inb port s :=
    if port = PIC_MASTER_COMMAND then (s.master.status, s)
    else if port = PIC_MASTER_DATA then (s.master.control.imr, s)
    else if port = PIC_SLAVE_COMMAND then (s.slave.status, s)
    else if port = PIC_SLAVE_DATA then (s.slave.control.imr, s)
    else ((rest.inb port s.rest).1, { s with rest := (rest.inb port s.rest).2 })
  inw port s := ((rest.inw port s.rest).1, { s with rest := (rest.inw port s.rest).2 })
  outb port d s :=
    if port = PIC_MASTER_COMMAND then { s with master := s.master.command d }
    else if port = PIC_MASTER_DATA then { s with master := s.master.data d }
    else if port = PIC_SLAVE_COMMAND then { s with slave := s.slave.command d }
    else if port = PIC_SLAVE_DATA then { s with slave := s.slave.data d }
    else { s with rest := rest.outb port d s.rest }

/-- Both chips take masks at their data ports. -/
structure State.Idle (s : State ρ) : Prop where
  master : s.master.control.stage = .mask
  slave : s.slave.control.stage = .mask

/-- The mask, request and in-service registers of both chips. -/
def State.imr (s : State ρ) : Word := s.slave.control.imr ++ s.master.control.imr

def State.irr (s : State ρ) : Word := s.slave.irr ++ s.master.irr

def State.isr (s : State ρ) : Word := s.slave.isr ++ s.master.isr

/-! ### The controller -/

/-- An interrupt controller with 16 lines. -/
@[ext]
structure Controller where
  masked : Set Line
  requested : Set Line
  inService : Set Line
  vector : Line → Byte

/-- What the chips stand for. -/
def State.controller (s : State ρ) : Controller where
  masked := lines s.imr
  requested := lines s.irr
  inService := lines s.isr
  vector l := if l.val < 8 then s.master.vector l.val else s.slave.vector (l.val - 8)

/-- A call of the driver. -/
inductive Call where
  | remap (offset1 offset2 : Byte)
  | setMask (line : Byte)
  | clearMask (line : Byte)
  | disable
  | sendEoi (irq : Byte)
  | getIrr
  | getIsr

/-- The vector offsets are multiples of 8, and the line of a mask is one of the 16. -/
def Call.Valid : Call → Prop
  | .remap offset1 offset2 => offset1.toNat % 8 = 0 ∧ offset2.toNat % 8 = 0
  | .setMask line => line.toNat < 16
  | .clearMask line => line.toNat < 16
  | _ => True

/-- The code of the call. -/
def Call.code : Call → Kern Unit
  | .remap offset1 offset2 => picRemap offset1 offset2
  | .setMask line => irqSetMask line
  | .clearMask line => irqClearMask line
  | .disable => picDisable
  | .sendEoi irq => picSendEoi irq
  | .getIrr => picGetIrr >>= fun _ => .ret ()
  | .getIsr => picGetIsr >>= fun _ => .ret ()

/-- The vectors of the lines, from the offsets of the two chips. -/
def vectorAt (offset1 offset2 : Byte) (l : Line) : Byte :=
  if l.val < 8 then offset1 + BitVec.ofNat 8 l.val else offset2 + BitVec.ofNat 8 (l.val - 8)

/-- What the call does to the controller. -/
def Controller.after (c : Controller) : Call → Controller
  | .remap offset1 offset2 => { c with vector := vectorAt offset1 offset2 }
  | .setMask line => { c with masked := {l | l ∈ c.masked ∨ l.val = line.toNat} }
  | .clearMask line => { c with masked := {l | l ∈ c.masked ∧ l.val ≠ line.toNat} }
  | .disable => { c with masked := Set.univ }
  | .sendEoi irq =>
    let s := if 8 ≤ irq.toNat then served slaveLines c.inService else c.inService
    { c with inService := served masterLines s }
  | .getIrr => c
  | .getIsr => c

/-! ### One call -/

/-- `pic_get_vector` gives the vectors that the chips deliver. -/
def Synced (w : World (State ρ)) : Prop :=
  ∀ l : Line, picGetVector w.kernel.pic (BitVec.ofNat 8 l.val) = w.bus.controller.vector l

/-- From `w` to `t` the call has done what it means. -/
structure Meets (c : Call) (w t : World (State ρ)) : Prop where
  idle : t.bus.Idle
  controller : t.bus.controller = w.bus.controller.after c

variable {w : World (State ρ)}

/-- The chip with another mask. -/
def Chip.withMask (c : Chip) (imr : Byte) : Chip :=
  { c with control := { c.control with imr := imr } }

/-- Outside the initialisation a byte written to the data port is the mask. -/
theorem data_idle {c : Chip} (h : c.control.stage = .mask) (d : Byte) :
    c.data d = c.withMask d := by
  obtain ⟨⟨imr, offset, stage, single, announced⟩, irr, isr, readsIsr⟩ := c
  obtain rfl : stage = .mask := h
  rfl

/-- A call that changes the masks only. -/
theorem meets_of_masks {c : Call} {t : World (State ρ)} {m s : Byte} (h : w.bus.Idle)
    (hbus : t.bus = ⟨w.bus.master.withMask m, w.bus.slave.withMask s, w.bus.rest⟩)
    (hafter : w.bus.controller.after c = { w.bus.controller with masked := lines (s ++ m) }) :
    Meets c w t where
  idle := by
    rw [hbus]
    exact ⟨h.master, h.slave⟩
  controller := by
    rw [hbus, hafter]
    rfl

/-- `pic_disable` masks all lines. -/
theorem meets_disable (h : w.bus.Idle) :
    ∃ t, (Call.code .disable).run (machine (bus rest)) w = (some (), t) ∧
      Meets .disable w t ∧ t.kernel = w.kernel := by
  obtain ⟨t, hrun, hbus, hkernel⟩ : ∃ t,
      (Call.code .disable).run (machine (bus rest)) w = (some (), t) ∧
        t.bus = ⟨w.bus.master.data 0xff, w.bus.slave.data 0xff, w.bus.rest⟩ ∧
        t.kernel = w.kernel := ⟨_, rfl, rfl, rfl⟩
  rw [data_idle h.master, data_idle h.slave] at hbus
  refine ⟨t, hrun, meets_of_masks h hbus ?_, hkernel⟩
  rw [lines_full]
  rfl

/-- The line on the slave. -/
theorem toNat_sub_eight {line : Byte} (h : ¬ line.toNat < 8) :
    (line - 8).toNat = line.toNat - 8 := by
  have h8 : (8 : Byte).toNat = 8 := rfl
  rw [BitVec.toNat_sub, h8]
  omega

/-- A call that changes the mask bit of one line: `f` on the register of its chip, `A` on
the set of masked lines. -/
theorem meets_mask {c : Call} {line : Byte} (f : Byte → ℕ → Byte) (A : Set Line → ℕ → Set Line)
    (hline : line.toNat < 16) (h : w.bus.Idle)
    (hmaster : ∀ {hi lo : Byte} {k}, k < 8 → lines (hi ++ f lo k) = A (lines (hi ++ lo)) k)
    (hslave : ∀ {hi lo : Byte} {k}, k < 8 → lines (f hi k ++ lo) = A (lines (hi ++ lo)) (k + 8))
    (hcode : ∃ t, c.code.run (machine (bus rest)) w = (some (), t) ∧ t.kernel = w.kernel ∧
      t.bus = (bus rest).outb (maskPort line).1
        (f ((bus rest).inb (maskPort line).1 w.bus).1 (maskPort line).2.toNat)
        ((bus rest).inb (maskPort line).1 w.bus).2)
    (hafter : w.bus.controller.after c =
      { w.bus.controller with masked := A w.bus.controller.masked line.toNat }) :
    ∃ t, c.code.run (machine (bus rest)) w = (some (), t) ∧ Meets c w t ∧ t.kernel = w.kernel := by
  obtain ⟨t, hrun, hkernel, hbus⟩ := hcode
  refine ⟨t, hrun, ?_, hkernel⟩
  unfold maskPort at hbus
  by_cases hlow : line.toNat < 8
  · have hwrite : t.bus =
        ⟨w.bus.master.data (f w.bus.master.control.imr line.toNat), w.bus.slave, w.bus.rest⟩ := by
      rw [hbus, if_pos hlow]
      rfl
    rw [data_idle h.master] at hwrite
    refine meets_of_masks h hwrite ?_
    rw [hafter, hmaster hlow]
    rfl
  · have hwrite : t.bus = ⟨w.bus.master,
        w.bus.slave.data (f w.bus.slave.control.imr (line - 8).toNat), w.bus.rest⟩ := by
      rw [hbus, if_neg hlow]
      rfl
    rw [data_idle h.slave, toNat_sub_eight hlow] at hwrite
    refine meets_of_masks h hwrite ?_
    rw [hafter, hslave (by omega), Nat.sub_add_cancel (Nat.not_lt.1 hlow)]
    rfl

/-- `irq_set_mask` masks its line. -/
theorem meets_setMask {line : Byte} (hline : line.toNat < 16) (h : w.bus.Idle) :
    ∃ t, (Call.code (.setMask line)).run (machine (bus rest)) w = (some (), t) ∧
      Meets (.setMask line) w t ∧ t.kernel = w.kernel :=
  meets_mask rest (fun r k => r ||| 1#8 <<< k) (fun s k => {l | l ∈ s ∨ l.val = k}) hline h
    lines_set_master lines_set_slave ⟨_, rfl, rfl, rfl⟩ rfl

/-- `irq_clear_mask` unmasks its line. -/
theorem meets_clearMask {line : Byte} (hline : line.toNat < 16) (h : w.bus.Idle) :
    ∃ t, (Call.code (.clearMask line)).run (machine (bus rest)) w = (some (), t) ∧
      Meets (.clearMask line) w t ∧ t.kernel = w.kernel :=
  meets_mask rest (fun r k => r &&& ~~~(1#8 <<< k)) (fun s k => {l | l ∈ s ∧ l.val ≠ k}) hline h
    lines_clear_master lines_clear_slave ⟨_, rfl, rfl, rfl⟩ rfl

/-- A call that changes the in-service registers only. -/
theorem meets_of_isr {c : Call} {t : World (State ρ)} {m s : Byte} (h : w.bus.Idle)
    (hbus : t.bus = ⟨{ w.bus.master with isr := m }, { w.bus.slave with isr := s }, w.bus.rest⟩)
    (hafter : w.bus.controller.after c = { w.bus.controller with inService := lines (s ++ m) }) :
    Meets c w t where
  idle := by
    rw [hbus]
    exact ⟨h.master, h.slave⟩
  controller := by
    rw [hbus, hafter]
    rfl

/-- `pic_send_eoi` sends an EOI to the chips of the line. -/
theorem meets_sendEoi (irq : Byte) (h : w.bus.Idle) :
    ∃ t, (Call.code (.sendEoi irq)).run (machine (bus rest)) w = (some (), t) ∧
      Meets (.sendEoi irq) w t ∧ t.kernel = w.kernel := by
  by_cases hirq : 8 ≤ irq.toNat
  · obtain ⟨t, hrun, hbus, hkernel⟩ : ∃ t,
        (Call.code (.sendEoi irq)).run (machine (bus rest)) w = (some (), t) ∧
          t.bus = ⟨{ w.bus.master with isr := acknowledged w.bus.master.isr },
            { w.bus.slave with isr := acknowledged w.bus.slave.isr }, w.bus.rest⟩ ∧
          t.kernel = w.kernel := by
      rw [Call.code, picSendEoi, onlyIf, if_pos hirq]
      exact ⟨_, rfl, rfl, rfl⟩
    refine ⟨t, hrun, meets_of_isr h hbus ?_, hkernel⟩
    rw [Controller.after, if_pos hirq, lines_acknowledged_master, lines_acknowledged_slave]
    rfl
  · obtain ⟨t, hrun, hbus, hkernel⟩ : ∃ t,
        (Call.code (.sendEoi irq)).run (machine (bus rest)) w = (some (), t) ∧
          t.bus = ⟨{ w.bus.master with isr := acknowledged w.bus.master.isr }, w.bus.slave,
            w.bus.rest⟩ ∧ t.kernel = w.kernel := by
      rw [Call.code, picSendEoi, onlyIf, if_neg hirq]
      exact ⟨_, rfl, rfl, rfl⟩
    refine ⟨t, hrun, meets_of_isr h hbus ?_, hkernel⟩
    rw [Controller.after, if_neg hirq, lines_acknowledged_master]
    rfl

/-- Selecting a register changes neither the masks nor the registers. -/
theorem meets_getIrr (h : w.bus.Idle) :
    ∃ t, (Call.code .getIrr).run (machine (bus rest)) w = (some (), t) ∧
      Meets .getIrr w t ∧ t.kernel = w.kernel :=
  ⟨_, rfl, ⟨⟨h.master, h.slave⟩, rfl⟩, rfl⟩

/-- `pic_get_isr` reads what is in service. -/
theorem meets_getIsr (h : w.bus.Idle) :
    ∃ t, (Call.code .getIsr).run (machine (bus rest)) w = (some (), t) ∧
      Meets .getIsr w t ∧ t.kernel = w.kernel :=
  ⟨_, rfl, ⟨⟨h.master, h.slave⟩, rfl⟩, rfl⟩

/-- An offset that is a multiple of 8 is taken as it is. -/
theorem offset_eq {offset : Byte} (h : offset.toNat % 8 = 0) : offset &&& 0xf8 = offset := by
  have hall : ∀ offset : Byte, offset.toNat % 8 = 0 → offset &&& 0xf8 = offset := by
    decide +kernel
  exact hall offset h

/-- A remapped chip puts the line into the low bits of the vector. -/
theorem vector_remapped {c : Chip} {offset : Byte} (h : offset.toNat % 8 = 0) (line : ℕ) :
    Chip.vector { c with control := c.control.remapped offset, readsIsr := false } line =
      offset + BitVec.ofNat 8 line := by
  show (offset &&& 0xf8) + _ = _
  rw [offset_eq h]

/-- `pic_remap` moves the vectors, and keeps the masks. -/
theorem meets_remap {offset1 offset2 : Byte} (h1 : offset1.toNat % 8 = 0)
    (h2 : offset2.toNat % 8 = 0) :
    ∃ t, (Call.code (.remap offset1 offset2)).run (machine (bus rest)) w = (some (), t) ∧
      Meets (.remap offset1 offset2) w t ∧
      t.kernel = { w.kernel with pic := ⟨offset1, offset2⟩ } := by
  obtain ⟨t, hrun, hbus, hkernel⟩ : ∃ t,
      (Call.code (.remap offset1 offset2)).run (machine (bus rest)) w = (some (), t) ∧
        (∃ r, t.bus = ⟨{ w.bus.master with
              control := w.bus.master.control.remapped offset1, readsIsr := false },
            { w.bus.slave with
              control := w.bus.slave.control.remapped offset2, readsIsr := false }, r⟩) ∧
        t.kernel = { w.kernel with pic := ⟨offset1, offset2⟩ } := ⟨_, rfl, ⟨_, rfl⟩, rfl⟩
  obtain ⟨r, hbus⟩ := hbus
  refine ⟨t, hrun, ⟨?_, ?_⟩, hkernel⟩
  · rw [hbus]
    exact ⟨rfl, rfl⟩
  · rw [hbus]
    refine Controller.ext rfl rfl rfl (funext fun l => ?_)
    show (if l.val < 8 then _ else _) = vectorAt offset1 offset2 l
    rw [vector_remapped h1, vector_remapped h2]
    rfl

/-- The code returns `hi` and `lo` as one number, `hi` in the high byte. -/
def Reads (p : Kern Word) (w : World (State ρ)) (hi lo : Byte) : Prop :=
  ∃ v t, p.run (machine (bus rest)) w = (some v, t) ∧ v.toNat = hi.toNat * 256 + lo.toNat

/-- The value of a high byte and a low one. -/
theorem toNat_append (hi lo : Byte) : (hi ++ lo).toNat = hi.toNat * 256 + lo.toNat := by
  rw [BitVec.toNat_append, ← Nat.shiftLeft_add_eq_or_of_lt lo.isLt, Nat.shiftLeft_eq]

/-- `pic_get_irr` reads the requests of both chips. -/
theorem reads_picGetIrr (w : World (State ρ)) :
    Reads rest picGetIrr w w.bus.slave.irr w.bus.master.irr :=
  ⟨_, _, rfl, toNat_append _ _⟩

/-- `pic_get_isr` reads what is in service in both chips. -/
theorem reads_picGetIsr (w : World (State ρ)) :
    Reads rest picGetIsr w w.bus.slave.isr w.bus.master.isr :=
  ⟨_, _, rfl, toNat_append _ _⟩

/-! ### Sequences of calls -/

/-- A call of the driver, or the devices and the processor setting the registers of
the two chips. -/
inductive Step where
  | call (c : Call)
  | settle (masterIrr slaveIrr masterIsr slaveIsr : Byte)

/-- Only calls have something to be valid. -/
def Step.Valid : Step → Prop
  | .call c => c.Valid
  | .settle .. => True

/-- The chips with other registers. -/
def State.settled (s : State ρ) (masterIrr slaveIrr masterIsr slaveIsr : Byte) : State ρ where
  master := { s.master with irr := masterIrr, isr := masterIsr }
  slave := { s.slave with irr := slaveIrr, isr := slaveIsr }
  rest := s.rest

/-- The state after a step, `none` if the call does not return. -/
def runStep : Step → World (State ρ) → Option (World (State ρ))
  | .call c, w => (c.code.run (machine (bus rest)) w).1.map fun _ =>
      (c.code.run (machine (bus rest)) w).2
  | .settle mr sr ms ss, w => some { w with bus := w.bus.settled mr sr ms ss }

/-- The state after a sequence of steps. -/
def runSteps : List Step → World (State ρ) → Option (World (State ρ))
  | [], w => some w
  | s :: ss, w => (runStep rest s w).bind (runSteps ss)

/-- What a step does to the controller. -/
def Controller.step (c : Controller) : Step → Controller
  | .call call => c.after call
  | .settle mr sr ms ss => { c with requested := lines (sr ++ mr), inService := lines (ss ++ ms) }

/-- What a sequence of steps does to the controller. -/
def Controller.run (c : Controller) (steps : List Step) : Controller := steps.foldl .step c

/-- `pic_remap` is among the steps. -/
def Remaps (steps : List Step) : Prop := ∃ offset1 offset2, .call (.remap offset1 offset2) ∈ steps

/-- Behind `pic_remap`, the statics agree with the vectors of the chips. -/
theorem synced_remap {offset1 offset2 : Byte} {t : World (State ρ)}
    (hkernel : t.kernel.pic = ⟨offset1, offset2⟩)
    (hvector : t.bus.controller.vector = vectorAt offset1 offset2) : Synced t := by
  intro l
  have hl : (BitVec.ofNat 8 l.val).toNat = l.val := by
    rw [BitVec.toNat_ofNat]
    omega
  rw [hkernel, hvector, picGetVector, vectorAt, hl]
  by_cases hlow : l.val < 8
  · rw [if_pos hlow, if_pos hlow]
  · have hline : BitVec.ofNat 8 l.val - 8 = BitVec.ofNat 8 (l.val - 8) := by
      refine BitVec.eq_of_toNat_eq ?_
      rw [toNat_sub_eight (by rwa [hl]), hl, BitVec.toNat_ofNat]
      omega
    rw [if_neg hlow, if_neg hlow, hline]

/-- A call other than `pic_remap` keeps the vectors. -/
theorem Meets.synced {c : Call} {t : World (State ρ)} (h : Meets c w t)
    (hkernel : t.kernel = w.kernel)
    (hvector : (w.bus.controller.after c).vector = w.bus.controller.vector)
    (hc : ∀ offset1 offset2, c ≠ .remap offset1 offset2) :
    Synced w ∨ Remaps [.call c] → Synced t := by
  rintro (hw | ⟨offset1, offset2, hmem⟩)
  · intro l
    rw [hkernel, h.controller, hvector]
    exact hw l
  · have hstep := List.mem_singleton.1 hmem
    exact absurd (Step.call.inj hstep).symm (hc offset1 offset2)

/-- **One call.**  It returns, does to the chips what it means for the controller, and
keeps the vectors of `pic_get_vector` in step with them. -/
theorem run_call {c : Call} (hc : c.Valid) (h : w.bus.Idle) :
    ∃ t, c.code.run (machine (bus rest)) w = (some (), t) ∧ Meets c w t ∧
      (Synced w ∨ Remaps [.call c] → Synced t) := by
  cases c with
  | remap offset1 offset2 =>
    obtain ⟨t, hrun, hmeets, hkernel⟩ := meets_remap rest hc.1 hc.2
    refine ⟨t, hrun, hmeets, fun _ => synced_remap (congrArg Kernel.pic hkernel) ?_⟩
    rw [hmeets.controller]
    rfl
  | setMask line =>
    obtain ⟨t, hrun, hmeets, hkernel⟩ := meets_setMask rest hc h
    exact ⟨t, hrun, hmeets, hmeets.synced hkernel rfl nofun⟩
  | clearMask line =>
    obtain ⟨t, hrun, hmeets, hkernel⟩ := meets_clearMask rest hc h
    exact ⟨t, hrun, hmeets, hmeets.synced hkernel rfl nofun⟩
  | disable =>
    obtain ⟨t, hrun, hmeets, hkernel⟩ := meets_disable rest h
    exact ⟨t, hrun, hmeets, hmeets.synced hkernel rfl nofun⟩
  | sendEoi irq =>
    obtain ⟨t, hrun, hmeets, hkernel⟩ := meets_sendEoi rest irq h
    exact ⟨t, hrun, hmeets, hmeets.synced hkernel rfl nofun⟩
  | getIrr =>
    obtain ⟨t, hrun, hmeets, hkernel⟩ := meets_getIrr rest h
    exact ⟨t, hrun, hmeets, hmeets.synced hkernel rfl nofun⟩
  | getIsr =>
    obtain ⟨t, hrun, hmeets, hkernel⟩ := meets_getIsr rest h
    exact ⟨t, hrun, hmeets, hmeets.synced hkernel rfl nofun⟩

/-- One step. -/
theorem run_step {s : Step} (hs : s.Valid) (h : w.bus.Idle) :
    ∃ t, runStep rest s w = some t ∧ t.bus.Idle ∧
      t.bus.controller = w.bus.controller.step s ∧ (Synced w ∨ Remaps [s] → Synced t) := by
  cases s with
  | call c =>
    obtain ⟨t, hrun, hmeets, hsynced⟩ := run_call rest hs h
    refine ⟨t, ?_, hmeets.idle, hmeets.controller, hsynced⟩
    rw [runStep, hrun]
    rfl
  | settle mr sr ms ss =>
    refine ⟨_, rfl, ⟨h.master, h.slave⟩, rfl, ?_⟩
    rintro (hw | ⟨offset1, offset2, hmem⟩)
    · exact hw
    · exact Step.noConfusion (List.mem_singleton.1 hmem)

/-- **A sequence of steps.** -/
theorem run_steps {steps : List Step} (hvalid : ∀ s ∈ steps, s.Valid) (h : w.bus.Idle) :
    ∃ t, runSteps rest steps w = some t ∧ t.bus.Idle ∧
      t.bus.controller = w.bus.controller.run steps ∧
      (Synced w ∨ Remaps steps → Synced t) := by
  induction steps generalizing w with
  | nil => exact ⟨w, rfl, h, rfl, fun hs => hs.resolve_right fun ⟨_, _, hmem⟩ => nomatch hmem⟩
  | cons s ss ih =>
    obtain ⟨hs, hss⟩ := List.forall_mem_cons.1 hvalid
    obtain ⟨t, hrun, hidle, hstep, hsynced⟩ := run_step rest hs h
    obtain ⟨u, hrun', hidle', hsteps, hsynced'⟩ := ih hss hidle
    refine ⟨u, ?_, hidle', ?_, fun hw => hsynced' ?_⟩
    · rw [runSteps, hrun]
      exact hrun'
    · rw [hsteps, hstep]
      rfl
    · rcases hw with hw | ⟨offset1, offset2, hmem⟩
      · exact .inl (hsynced (.inl hw))
      · rcases List.mem_cons.1 hmem with rfl | hmem
        · exact .inl (hsynced (.inr ⟨offset1, offset2, List.mem_singleton_self _⟩))
        · exact .inr ⟨offset1, offset2, hmem⟩

/-- **The driver refines one controller with 16 lines.**  From chips outside their
initialisation every sequence of valid calls returns and leaves them there; masks,
registers and vectors are those of the controller after the same calls; the two
registers are read as they are; and once `pic_remap` was called, `pic_get_vector`
gives the vectors delivered. -/
theorem pic_refines {ρ : Type} (rest : Bus ρ) (w : World (State ρ)) (h : w.bus.Idle)
    (steps : List Step) (hvalid : ∀ s ∈ steps, s.Valid) :
    ∃ t, runSteps rest steps w = some t ∧ t.bus.Idle ∧
      t.bus.controller = w.bus.controller.run steps ∧
      Reads rest picGetIrr t t.bus.slave.irr t.bus.master.irr ∧
      Reads rest picGetIsr t t.bus.slave.isr t.bus.master.isr ∧
      (Remaps steps → Synced t) := by
  obtain ⟨t, hrun, hidle, hcontroller, hsynced⟩ := run_steps rest hvalid h
  exact ⟨t, hrun, hidle, hcontroller, reads_picGetIrr rest t, reads_picGetIsr rest t, fun hr =>
    hsynced (.inr hr)⟩

/-- The chips as the firmware leaves them, with nothing requested. -/
def firmware : State Unit where
  master := ⟨.firmware 0xb8 0x08, 0, 0, false⟩
  slave := ⟨.firmware 0x8f 0x70, 0, 0, false⟩
  rest := ()

/-- A firmware's controller, remapped, with an interrupt of line 9 taken and acknowledged. -/
theorem pic_refines_firmware :
    ∃ t, runSteps Bus.silent [.call (.remap 0x20 0x28), .call (.clearMask 9), .settle 4 2 4 2,
        .call (.sendEoi 9), .call .getIsr] (.boot firmware emptyIdt fun _ => 0) = some t ∧
      t.bus.Idle ∧ Synced t := by
  have hvalid : ∀ s ∈ ([.call (.remap 0x20 0x28), .call (.clearMask 9), .settle 4 2 4 2,
      .call (.sendEoi 9), .call .getIsr] : List Step), s.Valid := by
    simp [Step.Valid, Call.Valid]
  obtain ⟨t, hrun, hidle, -, -, -, hsynced⟩ := pic_refines Bus.silent
    (.boot firmware emptyIdt fun _ => 0) ⟨rfl, rfl⟩ _ hvalid
  exact ⟨t, hrun, hidle, hsynced ⟨0x20, 0x28, by simp⟩⟩

end Cascade
end DrewOS
