/-
# The hardware cursor

The cursor functions of `src/driver/vga.c`: `get_cursor`, `set_cursor`,
`set_cursor_screen`, `enable_cursor` and `disable_cursor`, over the CRT controller
behind ports `0x3d4` and `0x3d5`.  The first port selects one of its registers, the
second is the selected register.

A `Cursor` is what four of these registers are for: where the cursor stands, whether
it is shown, and its first and last scan line.  The rest of the controller that calls
can change is `Spare`: the unused bits of the registers of the scan lines, and the
register that is selected.  `cursor_refines` says that any sequence of calls does to the
registers what it means for the cursor and for the spare bits, and nothing else.  The
functions are not part of the boot sequence, `disable_cursor` apart.
-/

import DrewOS.Boot.Main
import DrewOS.Chips.Cascade

namespace DrewOS

open ByteMem Effect

/-! ### The code -/

/-- `get_cursor()`. -/
def getCursor : Kern Word := do
  writeByte REG_CTRL 0x0e
  let high ← readByte REG_DATA
  let offset : Word := high.setWidth 16 <<< 8
  writeByte REG_CTRL 0x0f
  let low ← readByte REG_DATA
  let offset := offset + low.setWidth 16
  return offset * 2

/-- `set_cursor(offset)`. -/
def setCursor (offset : Word) : Kern Unit := do
  writeByte REG_CTRL 0x0f
  writeByte REG_DATA ((offset &&& 0xff).setWidth 8)
  writeByte REG_CTRL 0x0e
  writeByte REG_DATA (((offset >>> 8) &&& 0xff).setWidth 8)

/-- `set_cursor_screen(x, y)`. -/
def setCursorScreen (x y : Byte) : Kern Unit :=
  setCursor (Console.getOffset x y % BitVec.ofNat 16 (Console.NCOL * Console.NROW * 2))

/-- `enable_cursor(start, end)`. -/
def enableCursor (start stop : Byte) : Kern Unit := do
  writeByte REG_CTRL 0x0a
  let cursorStart ← readByte REG_DATA
  writeByte REG_DATA (start ||| (cursorStart &&& 0xc0))
  writeByte REG_CTRL 0x0b
  let cursorEnd ← readByte REG_DATA
  writeByte REG_DATA (stop ||| (cursorEnd &&& 0xe0))

/-! ### The controller -/

namespace Crtc

/-- The register selected, the registers, and the rest of the machine. -/
structure State (ρ : Type) where
  index : Byte
  reg : Byte → Byte
  rest : ρ

variable {ρ : Type}

/-- The controller at its ports. -/
def bus (rest : Bus ρ) : Bus (State ρ) where
  inb port s :=
    if port = REG_CTRL then (s.index, s)
    else if port = REG_DATA then (s.reg s.index, s)
    else ((rest.inb port s.rest).1, { s with rest := (rest.inb port s.rest).2 })
  inw port s := ((rest.inw port s.rest).1, { s with rest := (rest.inw port s.rest).2 })
  outb port d s :=
    if port = REG_CTRL then { s with index := d }
    else if port = REG_DATA then { s with reg := Function.update s.reg s.index d }
    else { s with rest := rest.outb port d s.rest }

/-- The registers of the cursor. -/
def cursorRegs : List Byte := [0x0a, 0x0b, 0x0e, 0x0f]

/-- The cursor: the cell it stands on, counted from the start of the text, whether it
is shown, and its first and last scan line. -/
structure Cursor where
  cell : Word
  shown : Bool
  first : BitVec 5
  last : BitVec 5

/-- The cursor that the registers stand for. -/
def State.cursor (s : State ρ) : Cursor where
  cell := s.reg 0x0e ++ s.reg 0x0f
  shown := !(s.reg 0x0a).getLsbD 5
  first := (s.reg 0x0a).setWidth 5
  last := (s.reg 0x0b).setWidth 5

/-- What the calls leave behind beside the cursor: bits 7 and 6 of the register of the
first scan line, bits 7 to 5 of that of the last one, and the register selected. -/
structure Spare where
  first : BitVec 2
  last : BitVec 3
  index : Byte

def State.spare (s : State ρ) : Spare where
  first := (s.reg 0x0a).extractLsb' 6 2
  last := (s.reg 0x0b).extractLsb' 5 3
  index := s.index

/-- **The cursor and the spare bits are all of the two registers they share.** -/
theorem State.reg_scan (s : State ρ) :
    s.reg 0x0a = s.spare.first ++ BitVec.ofBool (!s.cursor.shown) ++ s.cursor.first ∧
      s.reg 0x0b = s.spare.last ++ s.cursor.last := by
  have hfirst : ∀ v : Byte,
      v = v.extractLsb' 6 2 ++ BitVec.ofBool (!!v.getLsbD 5) ++ v.setWidth 5 := by decide
  have hlast : ∀ v : Byte, v = v.extractLsb' 5 3 ++ v.setWidth 5 := by decide
  exact ⟨hfirst _, hlast _⟩

/-! ### Calls -/

/-- A call of one of the five functions. -/
inductive Call where
  | get
  | set (offset : Word)
  | setScreen (x y : Byte)
  | enable (start stop : Byte)
  | disable

/-- The function that is called; `get_cursor` alone has a result. -/
def Call.code : Call → Kern (Option Word)
  | .get => do return some (← getCursor)
  | .set offset => do setCursor offset; return none
  | .setScreen x y => do setCursorScreen x y; return none
  | .enable start stop => do enableCursor start stop; return none
  | .disable => do disableCursor; return none

/-- The results of a sequence of calls. -/
def runCalls : List Call → Kern (List (Option Word))
  | [] => return []
  | c :: cs => do
    let r ← c.code
    let rs ← runCalls cs
    return r :: rs

/-- The cell that `set_cursor_screen(x, y)` moves the cursor to. -/
def screenCell (x y : Byte) : Word :=
  Console.getOffset x y % BitVec.ofNat 16 (Console.NCOL * Console.NROW * 2)

/-- What a call means for the cursor. -/
def Cursor.after (k : Cursor) : Call → Cursor
  | .get => k
  | .set offset => { k with cell := offset }
  | .setScreen x y => { k with cell := screenCell x y }
  | .enable start stop =>
    { k with shown := !start.getLsbD 5, first := start.setWidth 5, last := stop.setWidth 5 }
  | .disable => { k with shown := false, first := 0 }

/-- What a call does to the spare bits and to the selection.  `enable_cursor` keeps the
bits that are set and adds those of its arguments; `disable_cursor` clears them. -/
def Spare.after (p : Spare) : Call → Spare
  | .get => { p with index := 0x0f }
  | .set _ => { p with index := 0x0e }
  | .setScreen _ _ => { p with index := 0x0e }
  | .enable start stop =>
    { first := p.first ||| start.extractLsb' 6 2
      last := p.last ||| stop.extractLsb' 5 3
      index := 0x0b }
  | .disable => { p with first := 0, index := 0x0a }

/-- What a call returns: twice the cell, in 16 bits. -/
def Cursor.answer (k : Cursor) : Call → Option Word
  | .get => some (k.cell * 2)
  | _ => none

/-- The cursor after a sequence of calls. -/
def Cursor.run (k : Cursor) (cs : List Call) : Cursor := cs.foldl Cursor.after k

/-- The spare bits and the selection after a sequence of calls. -/
def Spare.run (p : Spare) (cs : List Call) : Spare := cs.foldl Spare.after p

/-- The results of a sequence of calls. -/
def Cursor.answers (k : Cursor) : List Call → List (Option Word)
  | [] => []
  | c :: cs => k.answer c :: (k.after c).answers cs

/-- What no call changes: the registers other than the four of the cursor, the rest of the
machine, the kernel's statics, the interrupt flag and memory.  What calls do to the four
registers and to the selection is in `Cursor.after` and `Spare.after`. -/
structure Kept (s t : World (State ρ)) : Prop where
  regs : ∀ r, r ∉ cursorRegs → t.bus.reg r = s.bus.reg r
  rest : t.bus.rest = s.bus.rest
  kernel : t.kernel = s.kernel
  iflag : t.iflag = s.iflag
  mem : t.mem = s.mem

theorem Kept.refl (s : World (State ρ)) : Kept s s := ⟨fun _ _ => rfl, rfl, rfl, rfl, rfl⟩

/-- What one call keeps and the next keeps, both keep. -/
theorem Kept.trans {s t u : World (State ρ)} (h : Kept s t) (h' : Kept t u) : Kept s u :=
  ⟨fun r hr => (h'.regs r hr).trans (h.regs r hr), h'.rest.trans h.rest,
    h'.kernel.trans h.kernel, h'.iflag.trans h.iflag, h'.mem.trans h.mem⟩

/-! ### One register -/

section Ports

variable (rest : Bus ρ) (w : World (State ρ))

/-- The state after register `r` has been read. -/
def afterGet (r : Byte) : World (State ρ) :=
  (w.afterOutb (bus rest) REG_CTRL r).afterInb (bus rest) REG_DATA

/-- The state after `d` has been written to register `r`. -/
def afterPut (r d : Byte) : World (State ρ) :=
  (w.afterOutb (bus rest) REG_CTRL r).afterOutb (bus rest) REG_DATA d

/-- The state after register `r` has been read and written without being selected again. -/
def afterChange (r d : Byte) : World (State ρ) :=
  (afterGet rest w r).afterOutb (bus rest) REG_DATA d

/-- Reading a register of the cursor keeps the others. -/
theorem kept_get (r : Byte) : Kept w (afterGet rest w r) := ⟨fun _ _ => rfl, rfl, rfl, rfl, rfl⟩

/-- Writing a register of the cursor keeps the others. -/
theorem kept_put {r : Byte} (h : r ∈ cursorRegs) (d : Byte) : Kept w (afterPut rest w r d) := by
  refine ⟨fun r' hr => ?_, rfl, rfl, rfl, rfl⟩
  have hne : r' ≠ r := fun he => hr (he ▸ h)
  exact Function.update_of_ne hne ..

/-- Changing a register of the cursor keeps the others. -/
theorem kept_change {r : Byte} (h : r ∈ cursorRegs) (d : Byte) :
    Kept w (afterChange rest w r d) :=
  ⟨(kept_put rest w h d).regs, rfl, rfl, rfl, rfl⟩

end Ports

/-! ### One call -/

/-- The two bytes of an offset, as they are written. -/
theorem append_bytes (offset : Word) :
    ((offset >>> 8) &&& 0xff).setWidth 8 ++ (offset &&& 0xff).setWidth 8 = offset := by
  have hmask : ∀ v : Word, ((v &&& 0xff).setWidth 8).toNat = v.toNat % 256 := by
    intro v
    have hand : (v &&& 0xff).toNat = v.toNat % 2 ^ 8 := Nat.and_two_pow_sub_one_eq_mod v.toNat 8
    rw [BitVec.toNat_setWidth, hand]
    omega
  have hhigh : (offset >>> 8).toNat = offset.toNat / 2 ^ 8 := by
    rw [BitVec.toNat_ushiftRight, Nat.shiftRight_eq_div_pow]
  have hlt := offset.isLt
  refine BitVec.eq_of_toNat_eq ?_
  rw [Cascade.toNat_append, hmask, hmask, hhigh]
  omega

/-- The offset put together from the two bytes that were read. -/
theorem shifted_add (high low : Byte) :
    (high.setWidth 16 <<< 8 : Word) + low.setWidth 16 = high ++ low := by
  have hhigh := high.isLt
  have hlow := low.isLt
  refine BitVec.eq_of_toNat_eq ?_
  rw [Cascade.toNat_append, BitVec.toNat_add, BitVec.toNat_shiftLeft, BitVec.toNat_setWidth,
    BitVec.toNat_setWidth, Nat.shiftLeft_eq]
  omega

/-- What is kept of a register beside the bits that are given. -/
theorem getLsbD_or_and {v old mask : Byte} {i : ℕ} (h : mask.getLsbD i = false) :
    (v ||| (old &&& mask)).getLsbD i = v.getLsbD i := by
  rw [BitVec.getLsbD_or, BitVec.getLsbD_and, h, Bool.and_false, Bool.or_false]

/-- A mask of the high bits leaves the scan line. -/
theorem setWidth_or_and {v old mask : Byte} (h : ∀ i < 5, mask.getLsbD i = false) :
    (v ||| (old &&& mask)).setWidth 5 = v.setWidth 5 := by
  refine BitVec.eq_of_getLsbD_eq fun i hi => ?_
  rw [BitVec.getLsbD_setWidth, BitVec.getLsbD_setWidth, getLsbD_or_and (h i hi)]

/-- Bits that are set stay set, and those of the argument are added. -/
theorem extractLsb'_or_and {v old mask : Byte} {k n : ℕ}
    (h : ∀ i < n, mask.getLsbD (k + i) = true) :
    (v ||| (old &&& mask)).extractLsb' k n = old.extractLsb' k n ||| v.extractLsb' k n := by
  refine BitVec.eq_of_getLsbD_eq fun i hi => ?_
  rw [BitVec.getLsbD_or, BitVec.getLsbD_extractLsb', BitVec.getLsbD_extractLsb',
    BitVec.getLsbD_extractLsb', BitVec.getLsbD_or, BitVec.getLsbD_and, h i hi, Bool.and_true,
    decide_eq_true hi, Bool.true_and, Bool.true_and, Bool.true_and, Bool.or_comm]

section Runs

variable (rest : Bus ρ) (w : World (State ρ))

/-- `get_cursor` gives the doubled cell and moves nothing. -/
theorem run_getCursor :
    ∃ t, getCursor.run (machine (bus rest)) w = (some (w.bus.cursor.cell * 2), t) ∧
      t.bus.cursor = w.bus.cursor ∧ t.bus.spare = w.bus.spare.after .get ∧ Kept w t := by
  refine ⟨afterGet rest (afterGet rest w 0x0e) 0x0f, ?_, rfl, rfl,
    (kept_get rest w _).trans (kept_get rest _ _)⟩
  rw [State.cursor, ← shifted_add]
  rfl

/-- The low byte first. -/
theorem run_setCursor (offset : Word) :
    ∃ t, (setCursor offset).run (machine (bus rest)) w = (some (), t) ∧
      t.bus.cursor = { w.bus.cursor with cell := offset } ∧
      t.bus.spare = w.bus.spare.after (.set offset) ∧ Kept w t := by
  let t := afterPut rest (afterPut rest w 0x0f ((offset &&& 0xff).setWidth 8)) 0x0e
    (((offset >>> 8) &&& 0xff).setWidth 8)
  have hcell : t.bus.reg 0x0e ++ t.bus.reg 0x0f = offset := append_bytes offset
  refine ⟨t, rfl, ?_, rfl, (kept_put rest w (by decide) _).trans (kept_put rest _ (by decide) _)⟩
  rw [State.cursor, hcell]
  rfl

/-- Of the spare bits none is cleared. -/
theorem run_enableCursor (start stop : Byte) :
    ∃ t, (enableCursor start stop).run (machine (bus rest)) w = (some (), t) ∧
      t.bus.cursor = w.bus.cursor.after (.enable start stop) ∧
      t.bus.spare = w.bus.spare.after (.enable start stop) ∧ Kept w t := by
  let u := afterChange rest w 0x0a (start ||| (w.bus.reg 0x0a &&& 0xc0))
  let t := afterChange rest u 0x0b (stop ||| (u.bus.reg 0x0b &&& 0xe0))
  have hshown : (t.bus.reg 0x0a).getLsbD 5 = start.getLsbD 5 := getLsbD_or_and (by decide)
  have hfirst : (t.bus.reg 0x0a).setWidth 5 = start.setWidth 5 := setWidth_or_and (by decide)
  have hlast : (t.bus.reg 0x0b).setWidth 5 = stop.setWidth 5 := setWidth_or_and (by decide)
  have hspare₀ : (t.bus.reg 0x0a).extractLsb' 6 2 =
      w.bus.spare.first ||| start.extractLsb' 6 2 := extractLsb'_or_and (by decide)
  have hspare₁ : (t.bus.reg 0x0b).extractLsb' 5 3 =
      w.bus.spare.last ||| stop.extractLsb' 5 3 := extractLsb'_or_and (by decide)
  refine ⟨t, rfl, ?_, ?_,
    (kept_change rest w (by decide) _).trans (kept_change rest u (by decide) _)⟩
  · rw [State.cursor, hshown, hfirst, hlast]
    rfl
  · rw [State.spare, hspare₀, hspare₁]
    rfl

/-- `disable_cursor` hides the cursor. -/
theorem run_disableCursor :
    ∃ t, disableCursor.run (machine (bus rest)) w = (some (), t) ∧
      t.bus.cursor = w.bus.cursor.after .disable ∧
      t.bus.spare = w.bus.spare.after .disable ∧ Kept w t := by
  let t := afterPut rest w 0x0a 0x20
  have hreg : t.bus.reg 0x0a = 0x20 := by
    show Function.update w.bus.reg 0x0a 0x20 0x0a = 0x20
    exact Function.update_self ..
  refine ⟨t, rfl, ?_, ?_, kept_put rest w (by decide) _⟩
  · rw [State.cursor, hreg]
    rfl
  · rw [State.spare, hreg]
    rfl

/-- **One call.** -/
theorem run_call (c : Call) :
    ∃ t, c.code.run (machine (bus rest)) w = (some (w.bus.cursor.answer c), t) ∧
      t.bus.cursor = w.bus.cursor.after c ∧ t.bus.spare = w.bus.spare.after c ∧ Kept w t := by
  cases c with
  | get =>
    obtain ⟨t, hrun, hcursor, hspare, hkept⟩ := run_getCursor rest w
    exact ⟨t, Prog.run_bind_of_some _ hrun, hcursor, hspare, hkept⟩
  | set offset =>
    obtain ⟨t, hrun, hcursor, hspare, hkept⟩ := run_setCursor rest w offset
    exact ⟨t, Prog.run_bind_of_some _ hrun, hcursor, hspare, hkept⟩
  | setScreen x y =>
    obtain ⟨t, hrun, hcursor, hspare, hkept⟩ := run_setCursor rest w (screenCell x y)
    exact ⟨t, Prog.run_bind_of_some _ hrun, hcursor, hspare, hkept⟩
  | enable start stop =>
    obtain ⟨t, hrun, hcursor, hspare, hkept⟩ := run_enableCursor rest w start stop
    exact ⟨t, Prog.run_bind_of_some _ hrun, hcursor, hspare, hkept⟩
  | disable =>
    obtain ⟨t, hrun, hcursor, hspare, hkept⟩ := run_disableCursor rest w
    exact ⟨t, Prog.run_bind_of_some _ hrun, hcursor, hspare, hkept⟩

/-- **A sequence of calls.** -/
theorem run_calls (cs : List Call) :
    ∃ t, (runCalls cs).run (machine (bus rest)) w = (some (w.bus.cursor.answers cs), t) ∧
      t.bus.cursor = w.bus.cursor.run cs ∧ t.bus.spare = w.bus.spare.run cs ∧ Kept w t := by
  induction cs generalizing w with
  | nil => exact ⟨w, rfl, rfl, rfl, .refl w⟩
  | cons c cs ih =>
    obtain ⟨t, hrun, hcursor, hspare, hkept⟩ := run_call rest w c
    obtain ⟨u, hruns, hcursors, hspares, hkepts⟩ := ih t
    refine ⟨u, ?_, ?_, ?_, hkept.trans hkepts⟩
    · rw [runCalls, Prog.run_bind_of_some _ hrun, Prog.run_bind_of_some _ hruns, hcursor]
      rfl
    · rw [hcursors, hcursor]
      rfl
    · rw [hspares, hspare]
      rfl

end Runs

/-- The cell named by the last of the calls that place the cursor. -/
def placed (cell : Word) : List Call → Word
  | [] => cell
  | .set offset :: cs => placed offset cs
  | .setScreen x y :: cs => placed (screenCell x y) cs
  | _ :: cs => placed cell cs

/-- The cell behind any calls is the one that the last placing call set. -/
theorem cell_run (k : Cursor) (cs : List Call) : (k.run cs).cell = placed k.cell cs := by
  induction cs generalizing k with
  | nil => rfl
  | cons c cs ih =>
    have hstep := ih (k.after c)
    cases c <;> exact hstep

/-- **The functions refine one cursor.**  Any sequence of calls returns, with the
results that the cursor gives, and leaves the registers standing for the cursor after
them.  The other bits of the two registers of the scan lines are as `Spare.after` says:
none is cleared but by `disable_cursor`, which clears bits 7 and 6 of the first; the
register selected is the one that the last call selected last; and no other register and
nothing else in the machine has changed.  Where `get_cursor` is called next, it returns
what the last call that placed the cursor said, doubled, whatever was shown or hidden
since. -/
theorem cursor_refines {ρ : Type} (rest : Bus ρ) (w : World (State ρ)) (cs : List Call) :
    ∃ t, (runCalls cs).run (machine (bus rest)) w = (some (w.bus.cursor.answers cs), t) ∧
      t.bus.cursor = w.bus.cursor.run cs ∧ t.bus.spare = w.bus.spare.run cs ∧ Kept w t ∧
      (getCursor.run (machine (bus rest)) t).1 = some (placed w.bus.cursor.cell cs * 2) := by
  obtain ⟨t, hrun, hcursor, hspare, hkept⟩ := run_calls rest w cs
  obtain ⟨u, hget, -⟩ := run_getCursor rest t
  refine ⟨t, hrun, hcursor, hspare, hkept, ?_⟩
  rw [hget, hcursor, cell_run]

/-! ### Cells and bytes -/

/-- The offset of a cell on the screen is twice its number. -/
theorem toNat_getOffset {x y : Byte} (hx : x.toNat < 80) (hy : y.toNat < 25) :
    (Console.getOffset x y).toNat = 2 * (80 * y.toNat + x.toNat) := by
  unfold Console.getOffset Console.NCOL
  rw [BitVec.toNat_ofNat]
  omega

/-- On the screen nothing is reduced: the cell is the byte offset of `get_offset`. -/
theorem toNat_screenCell {x y : Byte} (hx : x.toNat < 80) (hy : y.toNat < 25) :
    (screenCell x y).toNat = 2 * (80 * y.toNat + x.toNat) := by
  have hbytes : (BitVec.ofNat 16 (Console.NCOL * Console.NROW * 2)).toNat = 4000 := rfl
  rw [screenCell, BitVec.toNat_umod, toNat_getOffset hx hy, hbytes]
  omega

/-- **`set_cursor_screen` counts in bytes, the controller in cells.**  For coordinates
on the screen the cursor is set on the cell with twice the number, so it stands on
the cell asked for only in the top left corner, and on no cell of the screen from
cell 1000 on; and `get_cursor` gives back the offset of the coordinates in that corner
only. -/
theorem setCursorScreen_placed_iff {ρ : Type} (rest : Bus ρ) (w : World (State ρ)) {x y : Byte}
    (hx : x.toNat < Console.NCOL) (hy : y.toNat < Console.NROW) :
    ∃ t, (setCursorScreen x y).run (machine (bus rest)) w = (some (), t) ∧ Kept w t ∧
      t.bus.cursor.cell.toNat = 2 * (80 * y.toNat + x.toNat) ∧
      (t.bus.cursor.cell.toNat = 80 * y.toNat + x.toNat ↔ x = 0 ∧ y = 0) ∧
      (t.bus.cursor.cell.toNat < Console.NCOL * Console.NROW ↔ 80 * y.toNat + x.toNat < 1000) ∧
      ((getCursor.run (machine (bus rest)) t).1 = some (Console.getOffset x y) ↔
        x = 0 ∧ y = 0) := by
  have hx' : x.toNat < 80 := hx
  have hy' : y.toNat < 25 := hy
  have hscreen : Console.NCOL * Console.NROW = 2000 := rfl
  have hcorner : x = 0 ∧ y = 0 ↔ 80 * y.toNat + x.toNat = 0 := by
    rw [← BitVec.toNat_inj, ← BitVec.toNat_inj]
    show x.toNat = 0 ∧ y.toNat = 0 ↔ _
    omega
  obtain ⟨t, hrun, hcursor, -, hkept⟩ := run_setCursor rest w (screenCell x y)
  obtain ⟨u, hget, -⟩ := run_getCursor rest t
  have hcell : t.bus.cursor.cell.toNat = 2 * (80 * y.toNat + x.toNat) := by
    rw [hcursor]
    exact toNat_screenCell hx' hy'
  have htwo : (t.bus.cursor.cell * 2).toNat = t.bus.cursor.cell.toNat * 2 := by
    rw [BitVec.toNat_mul]
    show t.bus.cursor.cell.toNat * 2 % _ = _
    omega
  refine ⟨t, hrun, hkept, hcell, ?_, ?_, ?_⟩
  · rw [hcorner]
    omega
  · omega
  · rw [hget, Option.some_inj, ← BitVec.toNat_inj, htwo, toNat_getOffset hx' hy', hcorner]
    omega

/-- The last cell of the first row: the cursor is set on the second row. -/
theorem setCursorScreen_placed_iff_column79 :
    ∃ t, (setCursorScreen 79 0).run (machine (bus Bus.silent))
        (.boot ⟨0, fun _ => 0, ()⟩ emptyIdt fun _ => 0) = (some (), t) ∧
      t.bus.cursor.cell.toNat = 158 := by
  obtain ⟨t, hrun, -, hcell, -⟩ := setCursorScreen_placed_iff Bus.silent
    (.boot ⟨0, fun _ => 0, ()⟩ emptyIdt fun _ => 0)
    (show (79 : Byte).toNat < Console.NCOL by decide)
    (show (0 : Byte).toNat < Console.NROW by decide)
  exact ⟨t, hrun, hcell⟩

end Crtc
end DrewOS
