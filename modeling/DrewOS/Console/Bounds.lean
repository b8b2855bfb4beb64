/-
# The console stays inside video memory

Every call of `clrscr` or `write_char`, in any order and with any arguments,
reads and writes bytes of the screen only.  The row counter may run past the
screen, so `y < 25` is not an invariant; what is kept is that the column is on
the screen and that a row below the screen goes with column 0 (`Settled`).  That
is enough for the next `handle_scrolling` to bring the cursor back, so every
store finds both coordinates on the screen.
-/

import DrewOS.Console.Screen

namespace DrewOS
namespace Console

open ByteMem

/-- What holds of the coordinates between two calls. -/
structure Settled (s : Screen) : Prop where
  column : s.x.toNat < 80
  below : 25 ≤ s.y.toNat → s.x = 0

/-- Both coordinates are on the screen. -/
structure Visible (s : Screen) : Prop where
  column : s.x.toNat < 80
  row : s.y.toNat < 25

/-- A cursor on the screen is settled. -/
theorem Visible.settled {s : Screen} (h : Visible s) : Settled s :=
  ⟨h.column, fun hy => absurd h.row (by omega)⟩

/-- Nothing is scrolled while the cursor is on the screen. -/
theorem handleScrolling_of_lt {s : Screen} (h : s.y.toNat < 25) : handleScrolling s = s :=
  if_pos h

/-- Below the screen, everything moves up by one row, and the last one is blanked. -/
theorem handleScrolling_of_ge {s : Screen} (h : 25 ≤ s.y.toNat) :
    handleScrolling s = ⟨blankCells (vmem (160 * 24)) 80 (moveRows s.ram), 0, 24⟩ := by
  have hn : ¬ s.y.toNat < NROW := Nat.not_lt.2 h
  rw [handleScrolling, if_neg hn, getAddress_row (by decide)]
  rfl

/-- `handle_scrolling` brings the cursor onto the screen. -/
theorem visible_handleScrolling {s : Screen} (h : Settled s) : Visible (handleScrolling s) := by
  rcases Nat.lt_or_ge s.y.toNat 25 with hy | hy
  · rw [handleScrolling_of_lt hy]
    exact ⟨h.column, hy⟩
  · rw [handleScrolling_of_ge hy]
    exact ⟨show (0 : Byte).toNat < 80 by decide, show (24 : Byte).toNat < 25 by decide⟩

/-- The linear position of the cursor. -/
def pos (s : Screen) : ℕ := 80 * s.y.toNat + s.x.toNat

/-- The cursor of a visible screen is on one of 2000 cells. -/
theorem Visible.pos_lt {s : Screen} (h : Visible s) : pos s < 2000 := by
  have := h.column
  have := h.row
  unfold pos
  omega

/-- A character is stored as two bytes at the cursor. -/
theorem storeChar_ram (c : Byte) (fg bg : Colour) (s : Screen) :
    (storeChar c fg bg s).ram =
      (s.ram.write (vmem (2 * pos s)) c).write (vmem (2 * pos s + 1)) (cellAttr fg bg) := by
  rw [storeChar, getAddress_eq]
  exact congrArg (fun a => (s.ram.write (vmem (2 * pos s)) c).write a (cellAttr fg bg))
    (vmem_add (2 * pos s) 1)

/-- The byte offset the new coordinates are computed from. -/
theorem storeChar_offset {s : Screen} (h : Visible s) :
    (BitVec.ofNat 16 ((getAddress s.x s.y + 2 - VIDEO_MEMORY).toNat / 2)).toNat = pos s + 1 := by
  have hp := h.pos_lt
  have hv : getAddress s.x s.y + 2 = vmem (2 * pos s + 2) := by
    rw [getAddress_eq]
    exact vmem_add (2 * pos s) 2
  have hoff : (vmem (2 * pos s + 2) - VIDEO_MEMORY).toNat = 2 * pos s + 2 := by
    have := vmem_toNat (k := 2 * pos s + 2) (by omega)
    have h0 : (VIDEO_MEMORY : Addr).toNat = 0xb8000 := rfl
    rw [BitVec.toNat_sub, this, h0]
    omega
  rw [hv, hoff, BitVec.toNat_ofNat]
  omega

/-- The column of the next cell. -/
theorem storeChar_x (c : Byte) (fg bg : Colour) {s : Screen} (h : Visible s) :
    (storeChar c fg bg s).x.toNat = (pos s + 1) % 80 := by
  have ho := storeChar_offset h
  simp only [storeChar, ho, NCOL, BitVec.toNat_ofNat]
  omega

/-- The row of the next cell. -/
theorem storeChar_y (c : Byte) (fg bg : Colour) {s : Screen} (h : Visible s) :
    (storeChar c fg bg s).y.toNat = (pos s + 1) / 80 := by
  have ho := storeChar_offset h
  have hp := h.pos_lt
  simp only [storeChar, ho, NCOL, BitVec.toNat_ofNat]
  omega

/-- Behind a stored character the cursor is on the screen or at the start of a row. -/
theorem settled_storeChar (c : Byte) (fg bg : Colour) {s : Screen} (h : Visible s) :
    Settled (storeChar c fg bg s) := by
  have hp := h.pos_lt
  have hx := storeChar_x c fg bg h
  have hy := storeChar_y c fg bg h
  refine ⟨by omega, fun h25 => BitVec.eq_of_toNat_eq ?_⟩
  rw [hx]
  show _ = 0
  omega

/-- A character is stored on the screen. -/
theorem screenOnly_storeChar (c : Byte) (fg bg : Colour) {s : Screen} (h : Visible s) :
    ScreenOnly s.ram (storeChar c fg bg s).ram := by
  have hp := h.pos_lt
  rw [storeChar_ram]
  exact (screenOnly_write _ (by omega) _).trans (screenOnly_write _ (by omega) _)

/-- **One printable character.**  It is stored on the screen and leaves the
cursor on the screen. -/
theorem writeChar_visible {c : Byte} (hc : Printable c) (fg bg : Colour) {s : Screen}
    (h : Settled s) : Visible (writeChar c fg bg s) := by
  rw [writeChar_printable hc]
  exact visible_handleScrolling (settled_storeChar c fg bg (visible_handleScrolling h))

/-! ### Sequences of calls -/

/-- A call of one of the console's entry points. -/
inductive Call where
  | clrscr
  | writeChar (c : Byte) (fg bg : Colour)

/-- The effect of a call. -/
def Call.run : Call → Screen → Screen
  | .clrscr, s => Console.clrscr s
  | .writeChar c fg bg, s => Console.writeChar c fg bg s

/-- The effect of a sequence of calls. -/
def runCalls (cs : List Call) (s : Screen) : Screen := cs.foldl (fun t c => c.run t) s

/-- The console at boot: any memory, nothing touched yet, `x = y = 0`. -/
def boot (m : Mem) : Screen := ⟨⟨m, []⟩, 0, 0⟩

/-- At the start the cursor is in the first cell. -/
theorem settled_boot (m : Mem) : Settled (boot m) :=
  ⟨show (0 : Byte).toNat < 80 by decide, fun _ => rfl⟩

/-- **One call** keeps the coordinates settled and touches the screen only. -/
theorem call_settled (c : Call) {s : Screen} (h : Settled s) :
    Settled (c.run s) ∧ ScreenOnly s.ram (c.run s).ram := by
  cases c with
  | clrscr =>
    exact ⟨⟨show (0 : Byte).toNat < 80 by decide, fun _ => rfl⟩, screenOnly_clrscr s⟩
  | writeChar c fg bg =>
    by_cases hn : c = newline
    · subst hn
      exact ⟨⟨show (0 : Byte).toNat < 80 by decide, fun _ => rfl⟩, .refl _⟩
    by_cases hr : c = carriageReturn
    · subst hr
      exact ⟨⟨show (0 : Byte).toNat < 80 by decide, fun _ => rfl⟩, .refl _⟩
    have hv := visible_handleScrolling h
    refine ⟨(writeChar_visible ⟨hn, hr⟩ fg bg h).settled, ?_⟩
    rw [Call.run, writeChar_printable ⟨hn, hr⟩]
    exact ((screenOnly_handleScrolling s).trans (screenOnly_storeChar c fg bg hv)).trans
      (screenOnly_handleScrolling _)

/-- Any calls leave the cursor settled, and write to the screen only. -/
theorem runCalls_settled (cs : List Call) {s : Screen} (h : Settled s) :
    Settled (runCalls cs s) ∧ ScreenOnly s.ram (runCalls cs s).ram := by
  induction cs generalizing s with
  | nil => exact ⟨h, .refl _⟩
  | cons c cs ih =>
    have hc := call_settled c h
    have hcs := ih hc.1
    exact ⟨hcs.1, hc.2.trans hcs.2⟩

/-- What the console promises after any sequence of calls. -/
structure InBounds (s : Screen) : Prop where
  touched : ∀ a ∈ s.ram.touched, 0xb8000 ≤ a.toNat ∧ a.toNat < 0xb8fa0
  column : s.x.toNat < 80
  below : 25 ≤ s.y.toNat → s.x = 0

/-- **Console bounds.**  From `x = y = 0`, after any calls of `clrscr` and
`write_char`, with any characters and colours and over any video memory, every
byte read or written so far is one of the screen's 4000, the column is on the
screen and a row below the screen goes with column 0; and a printable character
always leaves the row on the screen. -/
theorem console_in_bounds (m : Mem) (cs : List Call) :
    InBounds (runCalls cs (boot m)) ∧
      ∀ c fg bg, Printable c → (runCalls (cs ++ [.writeChar c fg bg]) (boot m)).y.toNat < 25 := by
  have h := runCalls_settled cs (settled_boot m)
  refine ⟨⟨fun a ha => ?_, h.1.column, h.1.below⟩, fun c fg bg hc => ?_⟩
  · rcases h.2.touched a ha with hb | hs
    · exact absurd hb List.not_mem_nil
    · exact (onScreen_iff a).1 hs
  · rw [runCalls, List.foldl_append]
    exact (writeChar_visible hc fg bg h.1).row

/-- A letter is printable, so the last part speaks about actual text: `'A'`
after 30 newlines. -/
theorem console_in_bounds_letter :
    (runCalls (List.replicate 30 (.writeChar newline .white .black) ++
      [.writeChar 0x41 .white .black]) (boot fun _ => 0)).y.toNat < 25 :=
  (console_in_bounds (fun _ => 0) (List.replicate 30 (.writeChar newline .white .black))).2
    0x41 .white .black (by decide)

end Console
end DrewOS
