/-
# What each console routine does to the cells

`cell m r c` is the character and attribute shown at row `r`, column `c`.
`clrscr` blanks all of them, `storeChar` changes the one under the cursor, and
`handle_scrolling`, when it scrolls, moves every row up by exactly one and
blanks the last (`cell_handleScrolling`).  The row copies run from the top, so
each row is read before the next copy overwrites it; the invariant of the loop
is a screen shifted down to row `i` and still unshifted below.
-/

import DrewOS.Console.Bounds

namespace DrewOS
namespace Console

open ByteMem

/-- The character and the attribute in cell `(r, c)`. -/
def cell (m : Mem) (r c : ℕ) : Byte × Byte :=
  (m (vmem (2 * (80 * r + c))), m (vmem (2 * (80 * r + c) + 1)))

/-- The blank cell. -/
def blank : Byte × Byte := (space, 0)

/-- From `r` to `t`, the `n` cells from byte `b` on were blanked and no other. -/
structure Blanked (r : Ram) (b n : ℕ) (t : Ram) : Prop where
  char : ∀ i < n, t.bytes (vmem (b + 2 * i)) = space
  attr : ∀ i < n, t.bytes (vmem (b + 2 * i + 1)) = 0
  rest : ∀ k < 4000, k < b ∨ b + 2 * n ≤ k → t.bytes (vmem k) = r.bytes (vmem k)

/-- The loop blanks its cells and no other. -/
theorem blankCells_blanked {b n : ℕ} (h : b + 2 * n ≤ 4000) (r : Ram) :
    Blanked r b n (blankCells (vmem b) n r) := by
  refine forUp_induct (Blanked r b) ⟨fun i hi => absurd hi (Nat.not_lt_zero i),
    fun i hi => absurd hi (Nat.not_lt_zero i), fun _ _ _ => rfl⟩ ?_
  intro j t hj hI
  rw [vmem_add, vmem_add, ← Nat.add_assoc]
  set u := (t.write (vmem (b + 2 * j)) space).write (vmem (b + 2 * j + 1)) 0 with hu
  have hrest : ∀ k < 4000, k ≠ b + 2 * j → k ≠ b + 2 * j + 1 →
      u.bytes (vmem k) = t.bytes (vmem k) := by
    intro k hk h0 h1
    rw [hu, Ram.write_bytes_ne _ _ (vmem_ne hk (by omega) h1),
      Ram.write_bytes_ne _ _ (vmem_ne hk (by omega) h0)]
  refine ⟨fun i hi => ?_, fun i hi => ?_, fun k hk hout => ?_⟩
  · rcases Nat.lt_succ_iff_lt_or_eq.1 hi with hlt | rfl
    · rw [hrest _ (by omega) (by omega) (by omega), hI.char i hlt]
    · rw [hu, Ram.write_bytes_ne _ _ (vmem_ne (by omega) (by omega) (by omega)),
        Ram.write_bytes_self]
  · rcases Nat.lt_succ_iff_lt_or_eq.1 hi with hlt | rfl
    · rw [hrest _ (by omega) (by omega) (by omega), hI.attr i hlt]
    · exact Ram.write_bytes_self ..
  · rw [hrest k hk (by omega) (by omega), hI.rest k hk (by omega)]

/-- From `r` to `t`, rows `1..i` were moved up by one and the rows below are as they were. -/
structure Shifted (r : Ram) (i : ℕ) (t : Ram) : Prop where
  done : ∀ k < 160 * i, t.bytes (vmem k) = r.bytes (vmem (k + 160))
  rest : ∀ k < 4000, 160 * i ≤ k → t.bytes (vmem k) = r.bytes (vmem k)

/-- **The row copies shift the screen up by one row**, whatever it shows. -/
theorem moveRows_shifted (r : Ram) : Shifted r 24 (moveRows r) := by
  refine forUp_induct (Shifted r) ⟨fun k hk => absurd hk (Nat.not_lt_zero k), fun _ _ _ => rfl⟩ ?_
  intro i t hi hI
  have hi' : i < 24 := hi
  have hc := copyRow_copied hi t
  refine ⟨fun k hk => ?_, fun k hk hge => ?_⟩
  · rcases Nat.lt_or_ge k (160 * i) with hlt | hge
    · rw [hc.frame, hI.done k hlt]
      intro j hj
      rw [vmem_add]
      exact vmem_ne (by omega) (by omega) (by omega)
    · obtain ⟨j, rfl⟩ := Nat.exists_eq_add_of_le hge
      have hcopy := hc.copied j (by omega)
      rw [vmem_add, vmem_add] at hcopy
      rw [hcopy, hI.rest _ (by omega) (by omega)]
      congr 2
      omega
  · rw [hc.frame, hI.rest k hk (by omega)]
    intro j hj
    rw [vmem_add]
    exact vmem_ne (by omega) (by omega) (by omega)

/-- `clrscr` blanks every cell. -/
theorem cell_clrscr (s : Screen) {r c : ℕ} (hr : r < 25) (hc : c < 80) :
    cell (clrscr s).ram.bytes r c = blank := by
  have h := blankCells_blanked (b := 0) (n := NROW * NCOL) (by decide) s.ram
  have hi : 80 * r + c < NROW * NCOL := show 80 * r + c < 2000 by omega
  have h1 := h.char _ hi
  have h2 := h.attr _ hi
  rw [Nat.zero_add] at h1 h2
  exact Prod.ext h1 h2

/-- **Scrolling is a one-row shift:** row `r` takes row `r + 1`, the last row is blank. -/
theorem cell_handleScrolling {s : Screen} (hy : 25 ≤ s.y.toNat) {r c : ℕ} (hr : r < 25)
    (hc : c < 80) :
    cell (handleScrolling s).ram.bytes r c =
      if r < 24 then cell s.ram.bytes (r + 1) c else blank := by
  have hb := blankCells_blanked (b := 160 * 24) (n := 80) (by decide) (moveRows s.ram)
  have hm := moveRows_shifted s.ram
  rw [handleScrolling_of_ge hy]
  split_ifs with h24
  · have hbyte : ∀ k, k + 160 < 4000 → (blankCells (vmem (160 * 24)) 80 (moveRows s.ram)).bytes
        (vmem k) = s.ram.bytes (vmem (k + 160)) := fun k hk => by
      rw [hb.rest k (by omega) (by omega), hm.done k (by omega)]
    refine Prod.ext ((hbyte _ (by omega)).trans ?_) ((hbyte _ (by omega)).trans ?_)
    · rw [show 2 * (80 * r + c) + 160 = 2 * (80 * (r + 1) + c) by omega]
      rfl
    · rw [show 2 * (80 * r + c) + 1 + 160 = 2 * (80 * (r + 1) + c) + 1 by omega]
      rfl
  · obtain rfl : r = 24 := by omega
    have h1 := hb.char c hc
    have h2 := hb.attr c hc
    rw [show 160 * 24 + 2 * c = 2 * (80 * 24 + c) by omega] at h1 h2
    exact Prod.ext h1 h2

/-- A stored character changes the cell under the cursor and no other. -/
theorem cell_storeChar (ch : Byte) (fg bg : Colour) {s : Screen} (h : Visible s) {r c : ℕ}
    (hr : r < 25) (hc : c < 80) :
    cell (storeChar ch fg bg s).ram.bytes r c =
      if 80 * r + c = pos s then (ch, cellAttr fg bg) else cell s.ram.bytes r c := by
  have hp := h.pos_lt
  rw [storeChar_ram]
  split_ifs with he
  · refine Prod.ext ?_ ?_
    · show (Ram.write _ _ _).bytes _ = _
      rw [he, Ram.write_bytes_ne _ _ (vmem_ne (by omega) (by omega) (by omega)),
        Ram.write_bytes_self]
    · show (Ram.write _ _ _).bytes _ = _
      rw [he, Ram.write_bytes_self]
  · refine Prod.ext ?_ ?_
    · show (Ram.write _ _ _).bytes _ = _
      rw [Ram.write_bytes_ne _ _ (vmem_ne (by omega) (by omega) (by omega)),
        Ram.write_bytes_ne _ _ (vmem_ne (by omega) (by omega) (by omega))]
      rfl
    · show (Ram.write _ _ _).bytes _ = _
      rw [Ram.write_bytes_ne _ _ (vmem_ne (by omega) (by omega) (by omega)),
        Ram.write_bytes_ne _ _ (vmem_ne (by omega) (by omega) (by omega))]
      rfl

end Console
end DrewOS
