/-
# Text without newlines is a tape

The cells of the screen, counted along the rows, are a window of 2000 cells on an
endless tape: what the screen showed before, and blanks behind it.  A printable
character is written at the head, which is the cursor, and the window moves by a
row when the cursor leaves it.  So text is appended, and nothing of it is lost but
what leaves the screen at the top (`screen_shows_tape`).
-/

import DrewOS.Console.Document
import DrewOS.Window.Tape

namespace DrewOS
namespace Console

open ByteMem Window

/-- Cell `i` of the screen, counted along the rows. -/
def cellAt (m : Mem) (i : ℕ) : Byte × Byte := (m (vmem (2 * i)), m (vmem (2 * i + 1)))

/-- A cell of the screen by its number. -/
theorem cell_eq_cellAt (m : Mem) (r c : ℕ) : cell m r c = cellAt m (80 * r + c) := rfl

/-- The cell that shows a character. -/
def Input.cell (i : Input) : Byte × Byte := (i.char, cellAttr i.fg i.bg)

/-- The tape that starts with the screen, and has its head at the cursor. -/
def Screen.tape (s : Screen) : Tape (Byte × Byte) where
  cells := fun i => if i < 2000 then cellAt s.ram.bytes i else blank
  head := pos s
  top := 0

/-- The screen is the window on the tape, and the cursor is the head. -/
structure Displays (t : Tape (Byte × Byte)) (s : Screen) : Prop where
  cells : ∀ i < 2000, cellAt s.ram.bytes i = t.cells (i + 80 * t.top)
  blank : ∀ i, 2000 + 80 * t.top ≤ i → t.cells i = blank
  head : t.head = pos s + 80 * t.top
  visible : Visible s

/-- A screen displays the tape of its own cells. -/
theorem displays_tape {s : Screen} (h : Visible s) : Displays s.tape s where
  cells := fun _ hi => (if_pos hi).symm
  blank := fun _ hi => if_neg (Nat.not_lt.2 hi)
  head := rfl
  visible := h

/-- Storing a character changes the cell of the cursor only. -/
theorem cellAt_storeChar (ch : Byte) (fg bg : Colour) {s : Screen} (h : Visible s) {i : ℕ}
    (hi : i < 2000) :
    cellAt (storeChar ch fg bg s).ram.bytes i =
      if i = pos s then (ch, cellAttr fg bg) else cellAt s.ram.bytes i := by
  have hdiv : 80 * (i / 80) + i % 80 = i := Nat.div_add_mod i 80
  have hcell := cell_storeChar ch fg bg h (r := i / 80) (c := i % 80) (by omega) (by omega)
  rwa [cell_eq_cellAt, cell_eq_cellAt, hdiv] at hcell

/-- Scrolling moves every cell up by 80 and blanks the last row. -/
theorem cellAt_handleScrolling {s : Screen} (hy : 25 ≤ s.y.toNat) {i : ℕ} (hi : i < 2000) :
    cellAt (handleScrolling s).ram.bytes i =
      if i < 1920 then cellAt s.ram.bytes (i + 80) else Console.blank := by
  have hdiv : 80 * (i / 80) + i % 80 = i := Nat.div_add_mod i 80
  have hnext : 80 * (i / 80 + 1) + i % 80 = i + 80 := by omega
  have hcell := cell_handleScrolling hy (r := i / 80) (c := i % 80) (by omega) (by omega)
  have hrow : i / 80 < 24 ↔ i < 1920 := by omega
  rwa [cell_eq_cellAt, cell_eq_cellAt, hdiv, hnext, if_congr hrow rfl rfl] at hcell

/-- **One printable character** is written on the tape. -/
theorem Displays.writeChar {t : Tape (Byte × Byte)} {s : Screen} (h : Displays t s) (i : Input)
    (hi : Printable i.char) :
    Displays (t.put 80 2000 i.cell) (writeChar i.char i.fg i.bg s) := by
  have hv := h.visible
  have hp := hv.pos_lt
  have hhead := h.head
  have hx := storeChar_x i.char i.fg i.bg hv
  have hy := storeChar_y i.char i.fg i.bg hv
  -- what the tape has after the store, where the window was before it
  have hstored : ∀ j < 2000, cellAt (storeChar i.char i.fg i.bg s).ram.bytes j =
      (t.put 80 2000 i.cell).cells (j + 80 * t.top) := by
    intro j hj
    rw [cellAt_storeChar i.char i.fg i.bg hv hj]
    by_cases hjp : j = pos s
    · have hj' : j + 80 * t.top = t.head := by omega
      rw [if_pos hjp, hj', Tape.put_cells_head]
      rfl
    · rw [if_neg hjp, h.cells j hj, Tape.put_cells_of_ne 80 2000 (by omega)]
  have hbeyond : ∀ j, 2000 + 80 * t.top ≤ j → (t.put 80 2000 i.cell).cells j = Console.blank := by
    intro j hj
    rw [Tape.put_cells_of_ne 80 2000 (by omega), h.blank j hj]
  rw [writeChar_printable hi, handleScrolling_of_lt hv.row]
  rcases Nat.lt_or_ge (pos s + 1) 2000 with hlt | hge
  · have htop : (t.put 80 2000 i.cell).top = t.top := if_pos (by omega)
    have hrow : (storeChar i.char i.fg i.bg s).y.toNat < 25 := by omega
    rw [handleScrolling_of_lt hrow]
    refine ⟨?_, ?_, ?_, ⟨(settled_storeChar i.char i.fg i.bg hv).column, hrow⟩⟩
    · rwa [htop]
    · rwa [htop]
    · rw [htop]
      show t.head + 1 = 80 * (storeChar i.char i.fg i.bg s).y.toNat +
        (storeChar i.char i.fg i.bg s).x.toNat + 80 * t.top
      omega
  · have htop : (t.put 80 2000 i.cell).top = t.top + 1 := if_neg (by omega)
    have hrow : 25 ≤ (storeChar i.char i.fg i.bg s).y.toNat := by omega
    refine ⟨fun j hj => ?_, fun j hj => hbeyond j (by omega), ?_,
      visible_handleScrolling (settled_storeChar i.char i.fg i.bg hv)⟩
    · rw [cellAt_handleScrolling hrow hj, htop]
      split_ifs with hj'
      · rw [hstored _ (by omega), Nat.mul_succ, Nat.add_assoc, Nat.add_comm 80]
      · exact (hbeyond _ (by omega)).symm
    · rw [handleScrolling_of_ge hrow, htop]
      show t.head + 1 = 80 * 24 + 0 + 80 * (t.top + 1)
      omega

/-- **The run lemma**, by induction on the text from its end. -/
theorem displays_typeOn {s : Screen} (h : Visible s) {cs : List Input}
    (hcs : ∀ i ∈ cs, Printable i.char) :
    Displays (s.tape.write 80 2000 (cs.map Input.cell)) (typeOn cs s) := by
  induction cs using List.reverseRecOn with
  | nil => exact displays_tape h
  | append_singleton cs i ih =>
    have hinit := ih fun j hj => hcs j (List.mem_append_left _ hj)
    have hlast := hinit.writeChar i (hcs i (List.mem_append_right _ (List.mem_singleton_self i)))
    rw [List.map_append, List.map_singleton, Tape.write_concat, typeOn, List.foldl_append]
    exact hlast

/-- Text touches the screen only. -/
theorem screenOnly_typeOn {s : Screen} (h : Settled s) (cs : List Input) :
    ScreenOnly s.ram (typeOn cs s).ram := by
  induction cs generalizing s with
  | nil => exact .refl _
  | cons i cs ih =>
    have hone := call_settled (.writeChar i.char i.fg i.bg) h
    exact hone.2.trans (ih hone.1)

/-- How often the screen is scrolled when `n` characters are written from position `p`. -/
def scrolls (p n : ℕ) : ℕ := if p + n < 2000 then 0 else (p + n - 2000) / 80 + 1

/-- Cell `i` of the tape: the old screen up to the cursor, the text, the old screen
behind the text, and blanks. -/
def tapeCell (s : Screen) (cs : List Input) (i : ℕ) : Byte × Byte :=
  if i < pos s then cellAt s.ram.bytes i
  else if h : i - pos s < cs.length then cs[i - pos s].cell
  else if i < 2000 then cellAt s.ram.bytes i
  else blank

/-- The cells of the tape behind the characters. -/
theorem write_eq_tapeCell {s : Screen} (h : Visible s) (cs : List Input) (i : ℕ) :
    (s.tape.write 80 2000 (cs.map Input.cell)).cells i = tapeCell s cs i := by
  have hp := h.pos_lt
  rw [Tape.write_cells]
  show (if pos s ≤ i then (cs.map Input.cell)[i - pos s]?.getD
    (if i < 2000 then cellAt s.ram.bytes i else blank)
    else if i < 2000 then cellAt s.ram.bytes i else blank) = tapeCell s cs i
  unfold tapeCell
  rcases Nat.lt_or_ge i (pos s) with hlt | hge
  · rw [if_neg (Nat.not_le.2 hlt), if_pos hlt, if_pos (by omega)]
  · rw [if_pos hge, if_neg (Nat.not_lt.2 hge)]
    by_cases htext : i - pos s < cs.length
    · rw [dif_pos htext, List.getElem?_map, List.getElem?_eq_getElem htext]
      rfl
    · rw [dif_neg htext, List.getElem?_map, List.getElem?_eq_none (Nat.not_lt.1 htext)]
      rfl

/-- The window has moved once for every scroll. -/
theorem write_top {s : Screen} (h : Visible s) (cs : List Input) :
    (s.tape.write 80 2000 (cs.map Input.cell)).top = scrolls (pos s) cs.length := by
  have hstart : Tape.Framed 80 2000 s.tape := ⟨h.pos_lt, fun _ hk => nomatch hk⟩
  rw [(hstart.write (by decide) _).top_eq, Tape.write_head, List.length_map]
  rfl

/-- **Text is appended and scrolled without loss.**  From a cursor on the screen,
after any printable characters, the screen shows the tape from row `scrolls` on, the
cursor is behind the text, and no byte outside the screen has changed. -/
theorem screen_shows_tape {s : Screen} (h : Visible s) {cs : List Input}
    (hcs : ∀ i ∈ cs, Printable i.char) :
    (∀ j < 2000, cellAt (typeOn cs s).ram.bytes j =
      tapeCell s cs (j + 80 * scrolls (pos s) cs.length)) ∧
    (Visible (typeOn cs s) ∧
      pos (typeOn cs s) = pos s + cs.length - 80 * scrolls (pos s) cs.length) ∧
    ∀ a, ¬ OnScreen a → (typeOn cs s).ram.bytes a = s.ram.bytes a := by
  have hdisplays := displays_typeOn h hcs
  have htop := write_top h cs
  refine ⟨fun j hj => ?_, ⟨hdisplays.visible, ?_⟩, (screenOnly_typeOn h.settled cs).frame⟩
  · rw [hdisplays.cells j hj, write_eq_tapeCell h, htop]
  · have hhead := hdisplays.head
    rw [Tape.write_head, List.length_map, htop] at hhead
    have hstart : s.tape.head = pos s := rfl
    omega

/-- A character in the last cell of the screen scrolls it. -/
theorem screen_shows_tape_lastCell :
    pos (typeOn [⟨0x41, .white, .black⟩] ⟨⟨fun _ => 0, []⟩, 79, 24⟩) = 1920 :=
  (screen_shows_tape (s := ⟨⟨fun _ => 0, []⟩, 79, 24⟩) ⟨by decide, by decide⟩
    (by decide)).2.1.2.trans (by decide)

end Console
end DrewOS
