/-
# The text console

`src/driver/vga.c`: `clrscr`, `get_offset`, `get_address`, `handle_scrolling`
and `write_char`.  The console is the memory with the two `uint8_t` coordinates
`x` and `y`; cell `(r, c)` of the screen is the two bytes at
`VIDEO_MEMORY + 2 * (80 * r + c)`, character first, attribute second.

`y` is allowed to run past the screen: a newline on the last row only
increments it (and wraps at 256), and the text is moved up when the next
printable character arrives.
-/

import DrewOS.Kernel.Util

namespace DrewOS
namespace Console

open ByteMem

/-- Columns of the text mode. -/
def NCOL : ℕ := 80

/-- Rows of the text mode. -/
def NROW : ℕ := 25

/-- Start of video memory. -/
def VIDEO_MEMORY : Addr := 0xb8000

/-- `colour_t`. -/
inductive Colour where
  | black | blue | green | cyan | red | purple | brown | gray
  | darkGray | lightBlue | lightGreen | lightCyan | lightRed | lightPurple | yellow | white
  deriving DecidableEq, Repr

/-- The value of a colour in the C enumeration. -/
def Colour.toNat : Colour → ℕ
  | .black => 0 | .blue => 1 | .green => 2 | .cyan => 3
  | .red => 4 | .purple => 5 | .brown => 6 | .gray => 7
  | .darkGray => 8 | .lightBlue => 9 | .lightGreen => 10 | .lightCyan => 11
  | .lightRed => 12 | .lightPurple => 13 | .yellow => 14 | .white => 15

/-- `(bg << 4) + fg`, stored as a `char`. -/
def cellAttr (fg bg : Colour) : Byte := BitVec.ofNat 8 ((bg.toNat <<< 4) + fg.toNat)

/-- The console: memory and the coordinates of the next character. -/
structure Screen where
  ram : Ram
  x : Byte
  y : Byte

/-- The character `' '`. -/
def space : Byte := 0x20

/-- The character `'\n'`. -/
def newline : Byte := 0x0a

/-- The character `'\r'`. -/
def carriageReturn : Byte := 0x0d

/-- `get_offset(x, y)`. -/
def getOffset (x y : Byte) : Word := BitVec.ofNat 16 (2 * (x.toNat + y.toNat * NCOL))

/-- `get_address(x, y)`. -/
def getAddress (x y : Byte) : Addr := VIDEO_MEMORY + (getOffset x y).setWidth 32

/-- Write `n` blank cells (`' '`, attribute 0) from the address `buf`. -/
def blankCells (buf : Addr) (n : ℕ) (r : Ram) : Ram :=
  forUp n (fun i t => (t.write (buf + BitVec.ofNat 32 (2 * i)) space).write
    (buf + BitVec.ofNat 32 (2 * i + 1)) 0) r

/-- `clrscr()`. -/
def clrscr (s : Screen) : Screen where
  ram := blankCells VIDEO_MEMORY (NROW * NCOL) s.ram
  x := 0
  y := 0

/-- The row copies of `handle_scrolling`: row `i` onto row `i - 1` for `i` in `1..NROW-1`. -/
def moveRows (r : Ram) : Ram :=
  forUp (NROW - 1) (fun i t => copyMemory (getAddress 0 (BitVec.ofNat 8 (i + 1)))
    (getAddress 0 (BitVec.ofNat 8 i)) (BitVec.ofNat 16 (NCOL * 2)) t) r

/-- `handle_scrolling()`. -/
def handleScrolling (s : Screen) : Screen :=
  if s.y.toNat < NROW then s
  else
    { ram := blankCells (getAddress 0 (BitVec.ofNat 8 (NROW - 1))) NCOL (moveRows s.ram)
      x := 0
      y := BitVec.ofNat 8 (NROW - 1) }

/-- The part of `write_char` that stores a printable character and advances. -/
def storeChar (c : Byte) (fg bg : Colour) (s : Screen) : Screen :=
  let buf := getAddress s.x s.y
  let ram := (s.ram.write buf c).write (buf + 1) (cellAttr fg bg)
  let offset : Word := BitVec.ofNat 16 ((buf + 2 - VIDEO_MEMORY).toNat / 2)
  { ram := ram
    x := BitVec.ofNat 8 (offset.toNat % NCOL)
    y := BitVec.ofNat 8 (offset.toNat / NCOL) }

/-- `write_char(c, fg, bg)`. -/
def writeChar (c : Byte) (fg bg : Colour) (s : Screen) : Screen :=
  if c = newline then { s with x := 0, y := s.y + 1 }
  else if c = carriageReturn then { s with x := 0 }
  else handleScrolling (storeChar c fg bg (handleScrolling s))

/-- A character that `write_char` stores on the screen. -/
def Printable (c : Byte) : Prop := c ≠ newline ∧ c ≠ carriageReturn

instance (c : Byte) : Decidable (Printable c) := inferInstanceAs (Decidable (_ ∧ _))

/-- A printable character is stored between two calls of `handle_scrolling`. -/
theorem writeChar_printable {c : Byte} (hc : Printable c) (fg bg : Colour) (s : Screen) :
    writeChar c fg bg s = handleScrolling (storeChar c fg bg (handleScrolling s)) := by
  rw [writeChar, if_neg hc.1, if_neg hc.2]

/-! ### Addresses on the screen -/

/-- The address of byte `k` of video memory. -/
def vmem (k : ℕ) : Addr := VIDEO_MEMORY + BitVec.ofNat 32 k

theorem vmem_add (k i : ℕ) : vmem k + BitVec.ofNat 32 i = vmem (k + i) := add_ofNat_add ..

/-- Different offsets are different addresses of the text buffer. -/
theorem vmem_inj {i j : ℕ} (hi : i < 4000) (hj : j < 4000) (h : vmem i = vmem j) : i = j :=
  add_ofNat_inj (by omega) (by omega) h

/-- Different offsets are different addresses of the text buffer. -/
theorem vmem_ne {i j : ℕ} (hi : i < 4000) (hj : j < 4000) (h : i ≠ j) : vmem i ≠ vmem j :=
  fun he => h (vmem_inj hi hj he)

/-- The text buffer lies at `0xb8000`. -/
theorem vmem_toNat {k : ℕ} (h : k < 4096) : (vmem k).toNat = 0xb8000 + k :=
  toNat_add_ofNat (show (VIDEO_MEMORY : Addr).toNat + k < 2 ^ 32 by
    have : (VIDEO_MEMORY : Addr).toNat = 0xb8000 := rfl
    omega)

/-- One of the 4000 bytes of the screen. -/
def OnScreen (a : Addr) : Prop := ∃ k < 4000, a = vmem k

/-- The screen is the 4000 bytes from `0xb8000` on. -/
theorem onScreen_iff (a : Addr) : OnScreen a ↔ 0xb8000 ≤ a.toNat ∧ a.toNat < 0xb8fa0 := by
  constructor
  · rintro ⟨k, hk, rfl⟩
    rw [vmem_toNat (by omega)]
    omega
  · rintro ⟨h1, h2⟩
    refine ⟨a.toNat - 0xb8000, by omega, BitVec.eq_of_toNat_eq ?_⟩
    rw [vmem_toNat (by omega)]
    omega

/-- No offset wraps: `get_offset` stays below `2^16` for all coordinates. -/
theorem getAddress_eq (x y : Byte) : getAddress x y = vmem (2 * (80 * y.toNat + x.toNat)) := by
  have hx := x.isLt
  have hy := y.isLt
  have h : (getOffset x y).setWidth 32 = BitVec.ofNat 32 (2 * (80 * y.toNat + x.toNat)) := by
    apply BitVec.eq_of_toNat_eq
    simp only [getOffset, NCOL, BitVec.toNat_setWidth, BitVec.toNat_ofNat]
    omega
  rw [getAddress, h]
  rfl

/-- The address of the first cell of a row. -/
theorem getAddress_row {i : ℕ} (h : i < 256) :
    getAddress 0 (BitVec.ofNat 8 i) = vmem (160 * i) := by
  have h0 : (0 : Byte).toNat = 0 := rfl
  rw [getAddress_eq, BitVec.toNat_ofNat, h0]
  congr 1
  omega

/-! ### What stays inside the screen -/

/-- From `r` to `t`, only bytes of the screen were read, written or changed. -/
structure ScreenOnly (r t : Ram) : Prop where
  touched : ∀ a ∈ t.touched, a ∈ r.touched ∨ OnScreen a
  frame : ∀ a, ¬ OnScreen a → t.bytes a = r.bytes a

theorem ScreenOnly.refl (r : Ram) : ScreenOnly r r := ⟨fun _ h => .inl h, fun _ _ => rfl⟩

/-- Writes to the screen only, one behind the other. -/
theorem ScreenOnly.trans {r t u : Ram} (h : ScreenOnly r t) (h' : ScreenOnly t u) :
    ScreenOnly r u :=
  ⟨fun a ha => (h'.touched a ha).elim (h.touched a) .inr,
    fun a ha => (h'.frame a ha).trans (h.frame a ha)⟩

/-- A write to a cell stays on the screen. -/
theorem screenOnly_write (r : Ram) {k : ℕ} (hk : k < 4000) (v : Byte) :
    ScreenOnly r (r.write (vmem k) v) := by
  refine ⟨fun a ha => ?_, fun a ha => Ram.write_bytes_ne r v fun he => ha ⟨k, hk, he⟩⟩
  rw [Ram.write_touched, List.mem_append, List.mem_singleton] at ha
  exact ha.imp_right fun he => ⟨k, hk, he⟩

/-- Blanking cells stays on the screen. -/
theorem screenOnly_blankCells {b n : ℕ} (h : b + 2 * n ≤ 4000) (r : Ram) :
    ScreenOnly r (blankCells (vmem b) n r) := by
  refine forUp_induct (fun _ t => ScreenOnly r t) (.refl r) fun i t hi ht => ?_
  rw [vmem_add, vmem_add]
  exact (ht.trans (screenOnly_write t (by omega) _)).trans (screenOnly_write _ (by omega) _)

/-- One row copy of `handle_scrolling`. -/
theorem copyRow_copied {i : ℕ} (hi : i < NROW - 1) (r : Ram) :
    Copied (vmem (160 * (i + 1))) (vmem (160 * i)) 160 r
      (copyMemory (getAddress 0 (BitVec.ofNat 8 (i + 1))) (getAddress 0 (BitVec.ofNat 8 i))
        (BitVec.ofNat 16 (NCOL * 2)) r) := by
  have hi' : i < 24 := hi
  rw [getAddress_row (by omega), getAddress_row (by omega)]
  have hn : (BitVec.ofNat 16 (NCOL * 2)).toNat = 160 := rfl
  have hs := vmem_toNat (k := 160 * (i + 1)) (by omega)
  have hd := vmem_toNat (k := 160 * i) (by omega)
  have hc := copyMemory_copied (vmem (160 * (i + 1))) (vmem (160 * i))
    (BitVec.ofNat 16 (NCOL * 2)) (by omega) (by omega) (.inl (by omega)) r
  rwa [hn] at hc

/-- Moving the rows up stays on the screen. -/
theorem screenOnly_moveRows (r : Ram) : ScreenOnly r (moveRows r) := by
  refine forUp_induct (fun _ t => ScreenOnly r t) (.refl r) fun i t hi ht => ht.trans ?_
  have hi' : i < 24 := hi
  have hc := copyRow_copied hi t
  refine ⟨fun a ha => (hc.touched a ha).imp_right ?_, fun a ha => hc.frame a fun j hj he => ?_⟩
  · rintro ⟨j, hj, rfl | rfl⟩
    · exact ⟨160 * (i + 1) + j, by omega, vmem_add ..⟩
    · exact ⟨160 * i + j, by omega, vmem_add ..⟩
  · exact ha ⟨160 * i + j, by omega, he.trans (vmem_add ..)⟩

/-- `clrscr` stays on the screen. -/
theorem screenOnly_clrscr (s : Screen) : ScreenOnly s.ram (clrscr s).ram := by
  have h : vmem 0 = VIDEO_MEMORY := rfl
  rw [clrscr, ← h]
  exact screenOnly_blankCells (by decide) s.ram

/-- `handle_scrolling` stays on the screen. -/
theorem screenOnly_handleScrolling (s : Screen) : ScreenOnly s.ram (handleScrolling s).ram := by
  unfold handleScrolling
  split_ifs with h
  · exact .refl _
  · rw [getAddress_row (by decide)]
    exact (screenOnly_moveRows s.ram).trans (screenOnly_blankCells (by decide) _)

end Console
end DrewOS
