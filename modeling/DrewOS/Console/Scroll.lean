/-
# Scrolling, loop by loop

`handle_scrolling` runs two loops over a `uint8_t`: one copies the rows, the other
clears the last of them.  `handleScrolling_eq_loops` says that neither index wraps
around before its bound is reached, and that the loops are those of
`DrewOS.Console.Screen`.  `handleScrolling_shifts` is what they do to memory.
-/

import DrewOS.Console.Cells

namespace DrewOS
namespace Console

open ByteMem

/-! ### The loops over a `uint8_t` -/

/-- `for (; i < NROW; i++) copy_memory(get_address(0, i), get_address(0, i - 1), NCOL * 2);` -/
def moveRowsFrom (i : Byte) (r : Ram) : Ram :=
  if i.toNat < NROW then
    moveRowsFrom (i + 1)
      (copyMemory (getAddress 0 i) (getAddress 0 (i - 1)) (BitVec.ofNat 16 (NCOL * 2)) r)
  else r
termination_by 256 - i.toNat
decreasing_by
  have hrow : i.toNat < 25 := by assumption
  bv_omega

/-- `for (; i < NCOL * 2; i += 2) { prv[i] = ' '; prv[i + 1] = 0; }` -/
def clearLineFrom (prv : Addr) (i : Byte) (r : Ram) : Ram :=
  if i.toNat < NCOL * 2 then
    clearLineFrom prv (i + 2)
      ((r.write (prv + i.setWidth 32) space).write (prv + (i.setWidth 32 + 1)) 0)
  else r
termination_by 256 - i.toNat
decreasing_by
  have hcol : i.toNat < 160 := by assumption
  bv_omega

/-- `handle_scrolling()` with its loops. -/
def handleScrollingLoops (s : Screen) : Screen :=
  if s.y.toNat < NROW then s
  else
    { ram := clearLineFrom (getAddress 0 (BitVec.ofNat 8 (NROW - 1))) 0 (moveRowsFrom 1 s.ram)
      x := 0
      y := BitVec.ofNat 8 (NROW - 1) }

/-- The loop of `handle_scrolling` from its first row on. -/
theorem moveRowsFrom_one (r : Ram) : moveRowsFrom 1 r = moveRows r := by
  refine @loop_eq_forUp Byte Ram moveRowsFrom (fun k => BitVec.ofNat 8 (k + 1)) (NROW - 1)
    (fun i t => copyMemory (getAddress 0 (BitVec.ofNat 8 (i + 1)))
      (getAddress 0 (BitVec.ofNat 8 i)) (BitVec.ofNat 16 (NCOL * 2)) t) ?_ ?_ r
  · intro k hk t
    have hk' : k < 24 := hk
    have hrow : (BitVec.ofNat 8 (k + 1)).toNat < NROW := by
      show _ < 25
      rw [BitVec.toNat_ofNat]
      omega
    have hprev : BitVec.ofNat 8 (k + 1) - 1 = BitVec.ofNat 8 k := by bv_omega
    have hnext : BitVec.ofNat 8 (k + 1) + 1 = BitVec.ofNat 8 (k + 1 + 1) := by bv_omega
    rw [moveRowsFrom, if_pos hrow, hprev, hnext]
  · intro t
    rw [moveRowsFrom, if_neg (by decide)]

/-- The loop that clears the last line, from its first cell on. -/
theorem clearLineFrom_zero (prv : Addr) (r : Ram) :
    clearLineFrom prv 0 r = blankCells prv NCOL r := by
  refine @loop_eq_forUp Byte Ram (clearLineFrom prv) (fun k => BitVec.ofNat 8 (2 * k)) NCOL
    (fun i t => (t.write (prv + BitVec.ofNat 32 (2 * i)) space).write
      (prv + BitVec.ofNat 32 (2 * i + 1)) 0) ?_ ?_ r
  · intro k hk t
    have hk' : k < 80 := hk
    have hcol : (BitVec.ofNat 8 (2 * k)).toNat < NCOL * 2 := by
      show _ < 160
      rw [BitVec.toNat_ofNat]
      omega
    have hwide : (BitVec.ofNat 8 (2 * k)).setWidth 32 = BitVec.ofNat 32 (2 * k) := by bv_omega
    have hattr : BitVec.ofNat 32 (2 * k) + 1 = BitVec.ofNat 32 (2 * k + 1) := by bv_omega
    have hnext : BitVec.ofNat 8 (2 * k) + 2 = BitVec.ofNat 8 (2 * (k + 1)) := by bv_omega
    rw [clearLineFrom, if_pos hcol, hwide, hattr, hnext]
  · intro t
    rw [clearLineFrom, if_neg (by decide)]

/-- **The indices do not wrap around.** -/
theorem handleScrolling_eq_loops (s : Screen) : handleScrolling s = handleScrollingLoops s := by
  rw [handleScrolling, handleScrollingLoops, moveRowsFrom_one, clearLineFrom_zero]

/-! ### The shift -/

/-- **Scrolling is a one-row shift.**  Below the screen, whatever it shows: rows 1 to 24
move up, the last row is blank, the cursor is at its start, and no byte outside the
screen is changed.  On the screen nothing happens. -/
theorem handleScrolling_shifts (s : Screen) :
    (25 ≤ s.y.toNat →
      (∀ r < 24, ∀ c < 80,
        cell (handleScrolling s).ram.bytes r c = cell s.ram.bytes (r + 1) c) ∧
      (∀ c < 80, cell (handleScrolling s).ram.bytes 24 c = (space, 0)) ∧
      (handleScrolling s).x = 0 ∧ (handleScrolling s).y = 24 ∧
      ∀ a : Addr, a.toNat < 0xb8000 ∨ 0xb8fa0 ≤ a.toNat →
        (handleScrolling s).ram.bytes a = s.ram.bytes a) ∧
    (s.y.toNat < 25 → handleScrolling s = s) := by
  refine ⟨fun hy => ⟨fun r hr c hc => ?_, fun c hc => ?_, ?_, ?_, fun a ha => ?_⟩, fun hy => ?_⟩
  · rw [cell_handleScrolling hy (by omega) hc, if_pos hr]
  · rw [cell_handleScrolling hy (by omega) hc, if_neg (by omega)]
    rfl
  · rw [handleScrolling_of_ge hy]
  · rw [handleScrolling_of_ge hy]
  · refine (screenOnly_handleScrolling s).frame a fun hon => ?_
    have hbounds := (onScreen_iff a).1 hon
    omega
  · exact handleScrolling_of_lt hy

/-- From row 200, over a memory that holds its own addresses: the cell in the corner. -/
theorem handleScrolling_shifts_corner :
    cell (handleScrolling ⟨⟨fun a => a.setWidth 8, []⟩, 7, 200⟩).ram.bytes 0 0 =
      cell (fun a => a.setWidth 8) 1 0 :=
  ((handleScrolling_shifts ⟨⟨fun a => a.setWidth 8, []⟩, 7, 200⟩).1 (by decide)).1 0
    (by decide) 0 (by decide)

end Console
end DrewOS
