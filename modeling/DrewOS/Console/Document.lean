/-
# The screen as a window on a document

The printed document is an unbounded grid of 80-column rows with a cursor, and
the screen should show its rows `top .. top + 24`.  Printing a character
advances the cursor and moves the window down when the cursor leaves it; a
newline opens a row and moves the cursor only (`Document.type`).

`handle_scrolling` scrolls by one row, however far below the window newlines
have carried the cursor.  So newlines beyond the first row below the window are
lost when the next printable character arrives.  `Document.typeClamped` types a
character as the code does, with that loss; it is no specification.  The screen
is the window on the document typed so (`screen_shows_document`), and not the
one on the printed document (`screen_not_typed`).  When it is both is the
subject of `DrewOS.Console.Newlines`.
-/

import DrewOS.Console.Cells
import Mathlib.Data.List.Infix

namespace DrewOS
namespace Console

open ByteMem

/-- The printed document: its cells, the cursor and the first row of the window. -/
structure Document where
  cell : ℕ → ℕ → Option (Byte × Byte)
  row : ℕ
  col : ℕ
  top : ℕ

namespace Document

/-- The empty document. -/
def empty : Document := ⟨fun _ _ => none, 0, 0, 0⟩

/-- What the window shows at row `r`, column `c`. -/
def window (d : Document) (r c : ℕ) : Byte × Byte := (d.cell (d.top + r) c).getD blank

/-- Store a cell at the cursor and advance, to the next row after column 79. -/
def put (d : Document) (v : Byte × Byte) : Document where
  cell := fun r c => if r = d.row ∧ c = d.col then some v else d.cell r c
  row := if d.col = 79 then d.row + 1 else d.row
  col := if d.col = 79 then 0 else d.col + 1
  top := d.top

/-- Behind the last column the row is opened. -/
@[simp] theorem put_row (d : Document) (v : Byte × Byte) :
    (d.put v).row = if d.col = 79 then d.row + 1 else d.row := rfl

/-- Behind the last column the first one follows. -/
@[simp] theorem put_col (d : Document) (v : Byte × Byte) :
    (d.put v).col = if d.col = 79 then 0 else d.col + 1 := rfl

@[simp] theorem put_top (d : Document) (v : Byte × Byte) : (d.put v).top = d.top := rfl

/-- Move the window down, if need be, until it shows the cursor's row. -/
def follow (d : Document) : Document := { d with top := max d.top (d.row - 24) }

/-- What `handle_scrolling` makes of a cursor further below the window: it is brought
back to the first row below it. -/
def clamp (d : Document) : Document := { d with row := min d.row (d.top + 25) }

/-- The cursor advances by at most one row, so following a clamped cursor before
or after the store comes to the same window, and the second clamp does nothing. -/
theorem clamp_follow_put (d : Document) (v : Byte × Byte) :
    (d.clamp.follow.put v).clamp.follow = (d.clamp.put v).follow := by
  by_cases h : d.col = 79
  · simp only [put, clamp, follow, h, if_true]
    congr 1 <;> omega
  · simp only [put, clamp, follow, h, if_false]
    congr 1 <;> omega

/-- One character typed into the printed document: every newline opens a row. -/
def type (d : Document) (c : Byte) (fg bg : Colour) : Document :=
  if c = newline then { d with row := d.row + 1, col := 0 }
  else if c = carriageReturn then { d with col := 0 }
  else (d.put (c, cellAttr fg bg)).follow

/-- One character typed as the code does it: the cursor is clamped before a character
is stored. -/
def typeClamped (d : Document) (c : Byte) (fg bg : Colour) : Document :=
  if c = newline then { d with row := d.row + 1, col := 0 }
  else if c = carriageReturn then { d with col := 0 }
  else (d.clamp.put (c, cellAttr fg bg)).follow

end Document

/-- A character with its colours, as passed to `write_char`. -/
structure Input where
  char : Byte
  fg : Colour
  bg : Colour

/-- The screen after `write_char` of each character. -/
def typeOn (cs : List Input) (s : Screen) : Screen :=
  cs.foldl (fun t i => writeChar i.char i.fg i.bg t) s

/-- The printed document after the characters. -/
def typed (cs : List Input) (d : Document) : Document :=
  cs.foldl (fun t i => t.type i.char i.fg i.bg) d

/-- The document after the characters as the code types them. -/
def typedClamped (cs : List Input) (d : Document) : Document :=
  cs.foldl (fun t i => t.typeClamped i.char i.fg i.bg) d

/-- At most `limit` newlines between printable characters, before the first and
after the last one. -/
def ShortRuns (limit : ℕ) (cs : List Input) : Prop :=
  ∀ seg, seg <:+: cs → (∀ i ∈ seg, ¬ Printable i.char) →
    seg.countP (fun i => i.char = newline) ≤ limit

/-- The screen `s` is the window on `d` and its coordinates are the cursor. -/
structure Shows (d : Document) (s : Screen) : Prop where
  window : ∀ r < 25, ∀ c < 80, cell s.ram.bytes r c = d.window r c
  col : s.x.toNat = d.col
  row : d.row = d.top + s.y.toNat
  onScreen : d.col < 80
  below : d.top + 25 ≤ d.row → d.col = 0
  unseen : ∀ r, d.top + 25 ≤ r → ∀ c, d.cell r c = none

/-- What shows a document is settled. -/
theorem Shows.settled {d : Document} {s : Screen} (h : Shows d s) : Settled s := by
  refine ⟨h.col ▸ h.onScreen, fun hy => BitVec.eq_of_toNat_eq ?_⟩
  have := h.row
  rw [h.col, h.below (by omega)]
  rfl

/-- Behind `clrscr` the screen shows the empty document. -/
theorem shows_clrscr (s : Screen) : Shows Document.empty (clrscr s) where
  window := fun _ hr _ hc => cell_clrscr s hr hc
  col := rfl
  row := rfl
  onScreen := Nat.zero_lt_succ 79
  below := fun _ => rfl
  unseen := fun _ _ _ => rfl

/-- A newline moves the cursor only. -/
theorem Shows.newline {d : Document} {s : Screen} (h : Shows d s) (hy : s.y.toNat < 255) :
    Shows { d with row := d.row + 1, col := 0 } { s with x := 0, y := s.y + 1 } where
  window := h.window
  col := rfl
  row := by
    have hr := h.row
    have h1 : (1 : Byte).toNat = 1 := rfl
    show d.row + 1 = d.top + (s.y + 1).toNat
    rw [BitVec.toNat_add, h1]
    omega
  onScreen := Nat.zero_lt_succ 79
  below := fun _ => rfl
  unseen := h.unseen

/-- A carriage return moves the cursor only. -/
theorem Shows.carriageReturn {d : Document} {s : Screen} (h : Shows d s) :
    Shows { d with col := 0 } { s with x := 0 } where
  window := h.window
  col := rfl
  row := h.row
  onScreen := Nat.zero_lt_succ 79
  below := fun _ => rfl
  unseen := h.unseen

/-- `handle_scrolling` moves the window to the clamped cursor. -/
theorem Shows.handleScrolling {d : Document} {s : Screen} (h : Shows d s) :
    Shows d.clamp.follow (handleScrolling s) := by
  have hrow := h.row
  rcases Nat.lt_or_ge s.y.toNat 25 with hy | hy
  · -- the cursor is in the window: nothing moves
    have hd : d.clamp.follow = d := by
      simp only [Document.clamp, Document.follow]
      rw [Nat.min_eq_left (by omega), Nat.max_eq_left (by omega)]
    rw [handleScrolling_of_lt hy, hd]
    exact h
  · -- one row of scrolling, one row of window
    have hd : d.clamp.follow = { d with row := d.top + 25, top := d.top + 1 } := by
      simp only [Document.clamp, Document.follow]
      rw [Nat.min_eq_right (by omega), Nat.max_eq_right (by omega)]
      congr 1
    have hcol : d.col = 0 := h.below (by omega)
    rw [hd]
    refine ⟨fun r hr c hc => ?_, ?_, ?_, h.onScreen, fun _ => hcol, fun r hr c => ?_⟩
    · rw [cell_handleScrolling hy hr hc]
      split_ifs with h24
      · rw [h.window (r + 1) (by omega) c hc, Document.window, Document.window,
          show d.top + (r + 1) = d.top + 1 + r by omega]
      · obtain rfl : r = 24 := by omega
        rw [Document.window, show d.top + 1 + 24 = d.top + 25 by omega, h.unseen _ le_rfl c]
        rfl
    · rw [handleScrolling_of_ge hy, hcol]
      rfl
    · rw [handleScrolling_of_ge hy]
      rfl
    · exact h.unseen r (by have : d.top + 1 + 25 ≤ r := hr; omega) c

/-- A stored character is stored in the document at the cursor. -/
theorem Shows.storeChar {d : Document} {s : Screen} (h : Shows d s) (hv : Visible s) (c : Byte)
    (fg bg : Colour) : Shows (d.put (c, cellAttr fg bg)) (storeChar c fg bg s) := by
  have hrow := h.row
  have hcol := h.col
  have hon := h.onScreen
  have hy := hv.row
  have hp : pos s = 80 * s.y.toNat + d.col := by rw [pos, hcol]
  refine ⟨fun r hr k hk => ?_, ?_, ?_, ?_, ?_, fun r hr k => ?_⟩
  · rw [cell_storeChar c fg bg hv hr hk]
    simp only [Document.window, Document.put]
    by_cases he : d.top + r = d.row ∧ k = d.col
    · rw [if_pos (by omega), if_pos he]
      rfl
    · rw [if_neg (by omega), if_neg he]
      exact h.window r hr k hk
  · rw [storeChar_x c fg bg hv, hp, Document.put_col]
    split_ifs <;> omega
  · rw [storeChar_y c fg bg hv, hp, Document.put_row, Document.put_top]
    split_ifs <;> omega
  · rw [Document.put_col]
    split_ifs <;> omega
  · rw [Document.put_col, Document.put_row, Document.put_top]
    split_ifs <;> omega
  · have hr' : d.top + 25 ≤ r := hr
    simp only [Document.put]
    rw [if_neg (by omega)]
    exact h.unseen r hr' k

/-- **One printable character** typed on the screen is typed into the document. -/
theorem Shows.writeChar {d : Document} {s : Screen} (h : Shows d s) {c : Byte} (hc : Printable c)
    (fg bg : Colour) : Shows (d.typeClamped c fg bg) (writeChar c fg bg s) := by
  have h1 := h.handleScrolling
  have hv := visible_handleScrolling h.settled
  have h2 := (h1.storeChar hv c fg bg).handleScrolling
  rw [Document.clamp_follow_put] at h2
  rw [writeChar_printable hc, Document.typeClamped, if_neg hc.1, if_neg hc.2]
  exact h2

/-- After a printable character the cursor is in the window. -/
theorem typeClamped_row {d : Document} {s : Screen} (h : Shows d s) {c : Byte} (hc : Printable c)
    (fg bg : Colour) : (d.typeClamped c fg bg).row ≤ (d.typeClamped c fg bg).top + 24 := by
  have hs := h.writeChar hc fg bg
  have hv := writeChar_visible hc fg bg h.settled
  have := hs.row
  have := hv.row
  omega

/-- **The run lemma.**  `n` newlines are pending since the last printable
character; the row counter cannot wrap while there are at most 200 of them. -/
theorem shows_typeOn (cs : List Input) {d : Document} {s : Screen} (n : ℕ) (h : Shows d s)
    (hn : d.row ≤ d.top + 24 + n) (hlim : n ≤ 200)
    (hhead : ∀ seg, seg <+: cs → (∀ i ∈ seg, ¬ Printable i.char) →
      n + seg.countP (fun i => i.char = newline) ≤ 200)
    (hruns : ShortRuns 200 cs) : Shows (typedClamped cs d) (typeOn cs s) := by
  induction cs generalizing d s n with
  | nil => exact h
  | cons i cs ih =>
    have htail : ShortRuns 200 cs := fun seg hseg =>
      hruns seg (List.IsInfix.trans hseg (List.infix_cons (List.infix_refl cs)))
    rcases i with ⟨c, fg, bg⟩
    by_cases hnl : c = newline
    · subst hnl
      have hrow := h.row
      have h1 := hhead [⟨newline, fg, bg⟩] (by simp) (by simp [Printable])
      refine ih (n + 1) (h.newline (by omega)) (show d.row + 1 ≤ d.top + 24 + (n + 1) by omega)
        ?_ ?_ htail
      · simpa using h1
      · intro seg hseg hp
        have := hhead (⟨newline, fg, bg⟩ :: seg) (by simpa using hseg)
          (by simpa [Printable] using hp)
        simp only [List.countP_cons, decide_true, if_true] at this
        omega
    by_cases hcr : c = carriageReturn
    · subst hcr
      refine ih n h.carriageReturn hn hlim (fun seg hseg hp => ?_) htail
      have := hhead (⟨carriageReturn, fg, bg⟩ :: seg) (by simpa using hseg)
        (by simpa [Printable] using hp)
      have hne : ¬ (carriageReturn = newline) := by decide
      simpa [List.countP_cons, hne] using this
    · have hc : Printable c := ⟨hnl, hcr⟩
      refine ih 0 (h.writeChar hc fg bg) (typeClamped_row h hc fg bg) (by omega)
        (fun seg hseg hp => ?_) htail
      rw [Nat.zero_add]
      exact htail seg hseg.isInfix hp

/-- After any characters the screen shows the clamped document. -/
theorem shows_typed (cs : List Input) (s : Screen) (h : ShortRuns 200 cs) :
    Shows (typedClamped cs .empty) (typeOn cs (clrscr s)) :=
  shows_typeOn cs 0 (shows_clrscr s) (Nat.zero_le _) (by omega)
    (fun seg hseg hp => by
      rw [Nat.zero_add]
      exact h seg hseg.isInfix hp) h

/-- **The screen is a window on what the code types.**  After `clrscr` and any
characters with at most 200 newlines in a row, over any initial memory, row `r`,
column `c` of video memory shows cell `(top + r, c)` of the clamped document, and a
blank where it has nothing. -/
theorem screen_shows_document (s : Screen) (cs : List Input) (h : ShortRuns 200 cs) :
    ∀ r < 25, ∀ c < 80,
      cell (typeOn cs (clrscr s)).ram.bytes r c = (typedClamped cs .empty).window r c :=
  (shows_typed cs s h).window

/-- `'A'` on the last row, two newlines, `'B'`. -/
def twoNewlines : List Input :=
  List.replicate 24 ⟨newline, .white, .black⟩ ++
    [⟨0x41, .white, .black⟩, ⟨newline, .white, .black⟩, ⟨newline, .white, .black⟩,
      ⟨0x42, .white, .black⟩]

/-- There are fewer than 200 newlines. -/
theorem shortRuns_twoNewlines : ShortRuns 200 twoNewlines := fun seg hseg _ => by
  have h1 : seg.length ≤ 28 := hseg.length_le
  have h2 := List.countP_le_length (p := fun i : Input => decide (i.char = newline)) (l := seg)
  omega

/-- The second newline is lost: `'A'` is on the row above the last. -/
theorem screen_shows_document_twoNewlines :
    cell (typeOn twoNewlines (clrscr (boot fun _ => 0))).ram.bytes 23 0 = (0x41, 0x0f) :=
  (screen_shows_document (boot fun _ => 0) twoNewlines shortRuns_twoNewlines 23 (by decide) 0
    (by decide)).trans (by decide)

/-- **A newline is lost at the bottom.**  The screen is not the window on the printed
document: after `twoNewlines` that document has a blank row between the two letters,
and the screen shows `'A'` there. -/
theorem screen_not_typed : ¬ ∀ (s : Screen) (cs : List Input), ShortRuns 200 cs →
    ∀ r < 25, ∀ c < 80,
      cell (typeOn cs (clrscr s)).ram.bytes r c = (typed cs .empty).window r c := by
  intro h
  have h1 := h (boot fun _ => 0) twoNewlines shortRuns_twoNewlines 23 (by decide) 0 (by decide)
  rw [screen_shows_document_twoNewlines] at h1
  exact absurd h1 (by decide)

end Console
end DrewOS
