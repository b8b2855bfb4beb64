/-
# When no newline is lost

The screen is the window on the clamped document (`DrewOS.Console.Document`).
Here that document is compared with the printed one, in which every newline
opens a row.  Both have their cursors at the same place of their windows at any
time (`Parallel`), and every dropped newline moves the text above it up in the
printed document only.  So the rows above the last dropped newline that is
still shown are those of the other document, further down; and the two windows
are equal exactly if these rows are blank (`Parallel.same_iff`).

That is a condition on the printed document before each dropped newline:
`NothingLost` says that what it shows then and what stays on the screen up to
the end is blank.
-/

import DrewOS.Console.Document

namespace DrewOS
namespace Console

open ByteMem

namespace Document

/-- The rows by which the cursor is further down than the first row below the window. -/
def excess (d : Document) : ℕ := d.row - (d.top + 25)

/-- What the code relies on: nothing has been stored below the window, and the
cursor is there only at the start of a row. -/
structure Sound (d : Document) : Prop where
  onScreen : d.col < 80
  below : d.top + 25 ≤ d.row → d.col = 0
  unseen : ∀ r, d.top + 25 ≤ r → ∀ c, d.cell r c = none

/-- A clamped document is sound. -/
theorem Sound.clamp {d : Document} (h : d.Sound) : d.clamp.Sound where
  onScreen := h.onScreen
  below := fun hrow => h.below (Nat.le_min.1 hrow).1
  unseen := h.unseen

/-- The window below what has been stored is blank. -/
theorem Sound.window_of_ge {d : Document} (h : d.Sound) {r : ℕ} (hr : 25 ≤ r) (c : ℕ) :
    d.window r c = blank := by
  rw [window, h.unseen _ (by omega)]
  rfl

/-- Where the window starts once a character has been stored. -/
def topAfter (d : Document) : ℕ := max d.top ((if d.col = 79 then d.row + 1 else d.row) - 24)

/-- A printable character is put, and the window follows. -/
theorem type_of_printable (d : Document) {c : Byte} (hc : Printable c) (fg bg : Colour) :
    d.type c fg bg = (d.put (c, cellAttr fg bg)).follow := by
  rw [type, if_neg hc.1, if_neg hc.2]

/-- The window follows the stored character. -/
theorem type_top (d : Document) {c : Byte} (hc : Printable c) (fg bg : Colour) :
    (d.type c fg bg).top = d.topAfter := by
  rw [type_of_printable d hc]
  rfl

/-- Behind the last column the next row is opened. -/
theorem type_row (d : Document) {c : Byte} (hc : Printable c) (fg bg : Colour) :
    (d.type c fg bg).row = if d.col = 79 then d.row + 1 else d.row := by
  rw [type_of_printable d hc]
  rfl

/-- Behind the last column the first one follows. -/
theorem type_col (d : Document) {c : Byte} (hc : Printable c) (fg bg : Colour) :
    (d.type c fg bg).col = if d.col = 79 then 0 else d.col + 1 := by
  rw [type_of_printable d hc]
  rfl

/-- A clamped character is typed into the document with its cursor clamped. -/
theorem typeClamped_of_printable (d : Document) {c : Byte} (hc : Printable c) (fg bg : Colour) :
    d.typeClamped c fg bg = d.clamp.type c fg bg := by
  rw [typeClamped, if_neg hc.1, if_neg hc.2, type_of_printable _ hc]

/-- **The window after a character**: it has moved down to the cursor. -/
theorem window_type (d : Document) {c : Byte} (hc : Printable c) (fg bg : Colour) (r k : ℕ) :
    (d.type c fg bg).window r k =
      if d.topAfter + r = d.row ∧ k = d.col then (c, cellAttr fg bg)
      else d.window (d.topAfter - d.top + r) k := by
  have htop : d.top + (d.topAfter - d.top + r) = d.topAfter + r := by
    have : d.top ≤ d.topAfter := le_max_left _ _
    omega
  rw [type_of_printable d hc, window, window, htop]
  show (if d.topAfter + r = d.row ∧ k = d.col then some (c, cellAttr fg bg)
    else d.cell (d.topAfter + r) k).getD blank = _
  split_ifs <;> rfl

/-- Clamping does nothing while the cursor is at most one row below. -/
theorem clamp_of_le {d : Document} (h : d.row ≤ d.top + 25) : d.clamp = d := by
  rw [clamp, Nat.min_eq_left h]

/-- From the start of a row below the window, the window moves to that row. -/
theorem topAfter_of_below {d : Document} (hcol : d.col = 0) (hrow : d.top + 25 ≤ d.row) :
    d.topAfter = d.row - 24 := by
  rw [topAfter, hcol, if_neg (by decide), Nat.max_eq_right (by omega)]

/-- A clamped cursor below the window moves it down by one row. -/
theorem topAfter_clamp {d : Document} (hcol : d.col = 0) (hrow : d.top + 25 ≤ d.row) :
    d.clamp.topAfter = d.top + 1 := by
  have hclamp : d.clamp.row = d.top + 25 := Nat.min_eq_right hrow
  rw [topAfter_of_below (d := d.clamp) hcol hclamp.ge, hclamp]
  rfl

/-- Behind a clamp, the window shows what it has shown, one row higher. -/
theorem window_clamp_type {d : Document} (hcol : d.col = 0) (hrow : d.top + 25 ≤ d.row)
    {c : Byte} (hc : Printable c) (fg bg : Colour) {r : ℕ} (hr : r < 24) (k : ℕ) :
    (d.clamp.type c fg bg).window r k = d.window (1 + r) k := by
  have hclamp : d.clamp.row = d.top + 25 := Nat.min_eq_right hrow
  have htop : d.clamp.top = d.top := rfl
  rw [d.clamp.window_type hc, topAfter_clamp hcol hrow, hclamp, htop, if_neg (by omega),
    Nat.add_sub_cancel_left]
  rfl

/-- Typing keeps the document sound. -/
theorem Sound.type {d : Document} (h : d.Sound) (c : Byte) (fg bg : Colour) :
    (d.type c fg bg).Sound := by
  by_cases hnl : c = newline
  · rw [Document.type, if_pos hnl]
    exact ⟨Nat.zero_lt_succ 79, fun _ => rfl, h.unseen⟩
  by_cases hcr : c = carriageReturn
  · rw [Document.type, if_neg hnl, if_pos hcr]
    exact ⟨Nat.zero_lt_succ 79, fun _ => rfl, h.unseen⟩
  have hon := h.onScreen
  rw [type_of_printable d ⟨hnl, hcr⟩]
  refine ⟨?_, fun hrow => ?_, fun r hr k => ?_⟩
  · show (if d.col = 79 then 0 else d.col + 1) < 80
    split_ifs <;> omega
  · -- the window has followed the cursor
    have hrow : max d.top ((d.put (c, cellAttr fg bg)).row - 24) + 25 ≤
        (d.put (c, cellAttr fg bg)).row := hrow
    omega
  · have hr : d.topAfter + 25 ≤ r := hr
    have hne : ¬ (r = d.row ∧ k = d.col) := by
      rintro ⟨rfl, -⟩
      rw [topAfter] at hr
      split_ifs at hr <;> omega
    have htop : d.top ≤ d.topAfter := le_max_left _ _
    show (if r = d.row ∧ k = d.col then some (c, cellAttr fg bg) else d.cell r k) = none
    rw [if_neg hne, h.unseen r (by omega)]

/-- A character that is not stored moves no window. -/
theorem window_of_mark (d : Document) {c : Byte} (hc : ¬ Printable c) (fg bg : Colour) :
    (d.type c fg bg).top = d.top ∧ ∀ r k, (d.type c fg bg).window r k = d.window r k := by
  unfold type
  by_cases hnl : c = newline
  · rw [if_pos hnl]
    exact ⟨rfl, fun _ _ => rfl⟩
  · rw [if_neg hnl, if_pos (not_not.1 fun h => hc ⟨hnl, h⟩)]
    exact ⟨rfl, fun _ _ => rfl⟩

/-- A character that is not stored moves both cursors alike. -/
theorem typeClamped_of_mark (d : Document) {c : Byte} (hc : ¬ Printable c) (fg bg : Colour) :
    d.typeClamped c fg bg = d.type c fg bg := by
  rw [typeClamped, type]
  by_cases hnl : c = newline
  · rw [if_pos hnl, if_pos hnl]
  · have hcr : c = carriageReturn := not_not.1 fun h => hc ⟨hnl, h⟩
    rw [if_neg hnl, if_neg hnl, if_pos hcr, if_pos hcr]

/-- So does typing with the loss of rows. -/
theorem Sound.typeClamped {d : Document} (h : d.Sound) (c : Byte) (fg bg : Colour) :
    (d.typeClamped c fg bg).Sound := by
  by_cases hc : Printable c
  · rw [typeClamped_of_printable d hc]
    exact h.clamp.type c fg bg
  · rw [typeClamped_of_mark d hc]
    exact h.type c fg bg

end Document

theorem typed_concat (cs : List Input) (i : Input) (d : Document) :
    typed (cs ++ [i]) d = (typed cs d).type i.char i.fg i.bg :=
  List.foldl_append ..

theorem typedClamped_concat (cs : List Input) (i : Input) (d : Document) :
    typedClamped (cs ++ [i]) d = (typedClamped cs d).typeClamped i.char i.fg i.bg :=
  List.foldl_append ..

/-- Two texts are typed one behind the other. -/
theorem typed_append (cs cs' : List Input) (d : Document) :
    typed (cs ++ cs') d = typed cs' (typed cs d) :=
  List.foldl_append ..

/-! ### Two documents -/

/-- The printed document `P` beside the clamped one `Q`, which has dropped `δ` rows,
the last of them where row `b` of the window now is: from there on the windows are
equal, and above it a row of `P` is blank or is found further down in `Q`. -/
structure Parallel (P Q : Document) (b δ : ℕ) : Prop where
  top : P.top = Q.top + δ
  row : P.row = Q.row + δ
  col : P.col = Q.col
  low : P.top + b ≤ P.row
  bound : b ≤ 24
  same : ∀ r, b ≤ r → r < 25 → ∀ c < 80, P.window r c = Q.window r c
  shifted : ∀ r < b, (∀ c < 80, P.window r c = blank) ∨
    ∃ r', r < r' ∧ r' < b ∧ ∀ c < 80, P.window r c = Q.window r' c

namespace Parallel

variable {P Q : Document} {b δ : ℕ}

/-- Both windows move to the same place. -/
theorem topAfter (h : Parallel P Q b δ) : P.topAfter = Q.topAfter + δ := by
  have htop := h.top
  have hrow := h.row
  unfold Document.topAfter
  rw [h.col]
  split_ifs <;> omega

/-- **Two windows are equal where nothing is shown above the dropped rows.** -/
theorem same_iff (h : Parallel P Q b δ) :
    (∀ r < 25, ∀ c < 80, Q.window r c = P.window r c) ↔
      ∀ r < b, ∀ c < 80, Q.window r c = blank := by
  have hbound := h.bound
  constructor
  · intro heq
    -- from the dropped row upwards
    suffices hup : ∀ n r, r < b → b - r ≤ n → ∀ c < 80, Q.window r c = blank from
      fun r hr => hup (b - r) r hr le_rfl
    intro n
    induction n with
    | zero => exact fun r hr hn => absurd hn (by omega)
    | succ n ih =>
      intro r hr hn c hc
      rw [heq r (by omega) c hc]
      rcases h.shifted r hr with hblank | ⟨r', hlt, hr', hrow⟩
      · exact hblank c hc
      · rw [hrow c hc]
        exact ih r' hr' (by omega) c hc
  · intro hblank r hr c hc
    rcases Nat.lt_or_ge r b with hrb | hrb
    · rw [hblank r hrb c hc]
      rcases h.shifted r hrb with hP | ⟨r', -, hr', hrow⟩
      · exact (hP c hc).symm
      · rw [hrow c hc, hblank r' hr' c hc]
    · exact (h.same r hrb hr c hc).symm

/-- **Where both windows are blank** behind row `k`. -/
theorem blank_iff (h : Parallel P Q b δ) (k : ℕ) :
    (∀ r < 25, k < r → ∀ c < 80, Q.window r c = blank) ↔
      (∀ r < b, k < r → ∀ c < 80, Q.window r c = blank) ∧
        ∀ r < 25, k < r → ∀ c < 80, P.window r c = blank := by
  have hbound := h.bound
  constructor
  · intro hQ
    refine ⟨fun r hr hk => hQ r (by omega) hk, fun r hr hk c hc => ?_⟩
    rcases Nat.lt_or_ge r b with hrb | hrb
    · rcases h.shifted r hrb with hP | ⟨r', hlt, hr', hshift⟩
      · exact hP c hc
      · rw [hshift c hc]
        exact hQ r' (by omega) (by omega) c hc
    · rw [h.same r hrb hr c hc]
      exact hQ r hr hk c hc
  · rintro ⟨hQ, hP⟩ r hr hk c hc
    rcases Nat.lt_or_ge r b with hrb | hrb
    · exact hQ r hrb hk c hc
    · rw [← h.same r hrb hr c hc]
      exact hP r hr hk c hc

/-- A character that is not stored. -/
theorem mark (h : Parallel P Q b δ) {c : Byte} (hc : ¬ Printable c) (fg bg : Colour) :
    Parallel (P.type c fg bg) (Q.type c fg bg) b δ := by
  have hrow := h.row
  have hlow := h.low
  unfold Document.type
  by_cases hnl : c = newline
  · rw [if_pos hnl, if_pos hnl]
    exact ⟨h.top, show P.row + 1 = Q.row + 1 + δ by omega, rfl,
      show P.top + b ≤ P.row + 1 by omega, h.bound, h.same, h.shifted⟩
  · have hcr : c = carriageReturn := not_not.1 fun h => hc ⟨hnl, h⟩
    rw [if_neg hnl, if_neg hnl, if_pos hcr, if_pos hcr]
    exact ⟨h.top, hrow, rfl, hlow, h.bound, h.same, h.shifted⟩

/-- A character that is stored with no row dropped before it. -/
theorem store (h : Parallel P Q b δ) (hP : P.Sound) (hQ : Q.Sound) {c : Byte} (hc : Printable c)
    (fg bg : Colour) :
    Parallel (P.type c fg bg) (Q.type c fg bg) (b - (P.topAfter - P.top)) δ := by
  have hafter := h.topAfter
  obtain ⟨htop, hrow, hcol, hlow, hbound, hsame, hshifted⟩ := h
  have hP₀ : P.top ≤ P.topAfter := le_max_left _ _
  have hmoved : Q.topAfter - Q.top = P.topAfter - P.top := by omega
  -- the cursor is at the same row of both windows
  have hcursor : ∀ r k, (P.topAfter + r = P.row ∧ k = P.col) ↔
      (Q.topAfter + r = Q.row ∧ k = Q.col) := by
    intro r k
    rw [hcol]
    omega
  refine ⟨?_, ?_, ?_, ?_, by omega, fun r hr hr' k hk => ?_, fun r hr => ?_⟩
  · rw [P.type_top hc, Q.type_top hc]
    exact hafter
  · rw [P.type_row hc, Q.type_row hc, hcol]
    split_ifs <;> omega
  · rw [P.type_col hc, Q.type_col hc, hcol]
  · rw [P.type_top hc, P.type_row hc]
    unfold Document.topAfter
    split_ifs <;> omega
  · rw [P.window_type hc, Q.window_type hc, hmoved]
    simp only [hcursor]
    split_ifs with hat
    · rfl
    rcases Nat.lt_or_ge (P.topAfter - P.top + r) 25 with hin | hout
    · exact hsame _ (by omega) hin k hk
    · rw [hP.window_of_ge hout, hQ.window_of_ge hout]
  · -- the cursor is not above the dropped row, so the row has only moved up
    have hold : ∀ k, (P.type c fg bg).window r k = P.window (P.topAfter - P.top + r) k := by
      intro k
      rw [P.window_type hc, if_neg]
      omega
    simp only [hold]
    rcases hshifted (P.topAfter - P.top + r) (by omega) with hblank | ⟨r', hlt, hr', hsame'⟩
    · exact .inl hblank
    · refine .inr ⟨r' - (P.topAfter - P.top), by omega, by omega, fun k hk => ?_⟩
      rw [hsame' k hk, Q.window_type hc, hmoved, if_neg (by omega),
        show P.topAfter - P.top + (r' - (P.topAfter - P.top)) = r' by omega]

/-- **A character before which rows are dropped.** -/
theorem drop (h : Parallel P Q b δ) (hP : P.Sound) (hQ : Q.Sound) (hrows : P.top + 25 < P.row)
    {c : Byte} (hc : Printable c) (fg bg : Colour) :
    Parallel (P.type c fg bg) (Q.clamp.type c fg bg) 24 (δ + P.excess) := by
  obtain ⟨htop, hrow, hcol, hlow, hbound, hsame, hshifted⟩ := h
  have hcol₀ : P.col = 0 := hP.below hrows.le
  have hcol₁ : Q.col = 0 := hcol.symm.trans hcol₀
  have hcolQ : Q.clamp.col = 0 := hcol₁
  have hrowQ : Q.clamp.row = Q.top + 25 := Nat.min_eq_right (by omega)
  have htopQ : Q.clamp.top = Q.top := rfl
  have hne : ¬ (0 : ℕ) = 79 := by decide
  have hafterP : P.topAfter = P.row - 24 := Document.topAfter_of_below hcol₀ hrows.le
  have hafterQ : Q.clamp.topAfter = Q.top + 1 := Document.topAfter_clamp hcol₁ (by omega)
  have hexcess : P.excess = P.row - (P.top + 25) := rfl
  -- above the last row, the windows are the old ones further up
  have holdP : ∀ r < 24, ∀ k, (P.type c fg bg).window r k = P.window (P.excess + 1 + r) k := by
    intro r hr k
    rw [P.window_type hc, if_neg (by omega)]
    congr 1
    omega
  have holdQ : ∀ r < 24, ∀ k, (Q.clamp.type c fg bg).window r k = Q.window (1 + r) k :=
    fun r hr => Document.window_clamp_type hcol₁ (by omega) hc fg bg hr
  refine ⟨?_, ?_, ?_, ?_, le_rfl, fun r hr hr' k _ => ?_, fun r hr => ?_⟩
  · rw [P.type_top hc, Q.clamp.type_top hc]
    omega
  · rw [P.type_row hc, Q.clamp.type_row hc, hcol₀, hcolQ, if_neg hne, if_neg hne]
    omega
  · rw [P.type_col hc, Q.clamp.type_col hc, hcol₀, hcolQ]
  · rw [P.type_top hc, P.type_row hc, hcol₀, if_neg hne]
    omega
  · -- the character is in the last row, which is blank otherwise
    obtain rfl : r = 24 := by omega
    rw [P.window_type hc, Q.clamp.window_type hc]
    have hcursor : (P.topAfter + 24 = P.row ∧ k = P.col) ↔
        (Q.clamp.topAfter + 24 = Q.clamp.row ∧ k = Q.clamp.col) := by omega
    simp only [hcursor]
    split_ifs with hat
    · rfl
    · rw [hP.window_of_ge (by omega), hQ.clamp.window_of_ge (by omega)]
  · have hP' := holdP r hr
    simp only [hP']
    rcases Nat.lt_or_ge (P.excess + 1 + r) 25 with hin | hout
    · rcases Nat.lt_or_ge (P.excess + 1 + r) b with hlt | hge
      · rcases hshifted _ hlt with hblank | ⟨r', hlt', hr', hrow'⟩
        · exact .inl hblank
        · refine .inr ⟨r' - 1, by omega, by omega, fun k hk => ?_⟩
          rw [hrow' k hk, holdQ _ (by omega), show 1 + (r' - 1) = r' by omega]
      · refine .inr ⟨P.excess + r, by omega, by omega, fun k hk => ?_⟩
        rw [hsame _ hge hin k hk, holdQ _ (by omega),
          show 1 + (P.excess + r) = P.excess + 1 + r by omega]
    · exact .inl fun k _ => hP.window_of_ge hout k

end Parallel

/-! ### The condition -/

/-- The rows that are dropped when `cs` is typed behind the document `d`. -/
def dropped : List Input → Document → ℕ
  | [], _ => 0
  | i :: cs, d => (if Printable i.char then d.excess else 0) + dropped cs (d.type i.char i.fg i.bg)

/-- Rows are dropped in one text or in the next. -/
theorem dropped_append (cs cs' : List Input) (d : Document) :
    dropped (cs ++ cs') d = dropped cs d + dropped cs' (typed cs d) := by
  induction cs generalizing d with
  | nil => exact (Nat.zero_add _).symm
  | cons i cs ih =>
    rw [List.cons_append, dropped, dropped, ih, Nat.add_assoc]
    rfl

/-- Whenever a character is stored before which rows are dropped, the printed document
shows only blanks in the rows that are still on the screen when the text has ended and the
screen has been scrolled by `k` rows more.  The screen is scrolled as far as the window,
less the rows that are dropped on the way. -/
def BlankAbove (k : ℕ) (cs : List Input) : Prop :=
  ∀ pre i post, cs = pre ++ i :: post → Printable i.char →
    (typed pre .empty).top + 25 < (typed pre .empty).row → ∀ r < 25,
      (typed cs .empty).top + k <
        (typed (pre ++ [i]) .empty).top + dropped post (typed (pre ++ [i]) .empty) + r →
      ∀ c < 80, (typed pre .empty).window r c = blank

/-- **No visible newline is lost.** -/
def NothingLost (cs : List Input) : Prop := BlankAbove 0 cs

/-- One character more: `e` rows of scrolling more for what was dropped before it. -/
theorem blankAbove_concat {cs : List Input} {i : Input} {e : ℕ} (k : ℕ)
    (he : (typed (cs ++ [i]) .empty).top = (typed cs .empty).top + e +
      if Printable i.char then (typed cs .empty).excess else 0) :
    BlankAbove k (cs ++ [i]) ↔ BlankAbove (k + e) cs ∧ (Printable i.char →
      (typed cs .empty).top + 25 < (typed cs .empty).row →
        ∀ r < 25, k < r → ∀ c < 80, (typed cs .empty).window r c = blank) := by
  have hpost : ∀ {pre post : List Input} {j : Input}, cs = pre ++ j :: post →
      dropped (post ++ [i]) (typed (pre ++ [j]) .empty) =
        dropped post (typed (pre ++ [j]) .empty) +
          if Printable i.char then (typed cs .empty).excess else 0 := by
    rintro pre post j rfl
    rw [dropped_append, ← typed_append, List.append_assoc, List.singleton_append]
    rfl
  constructor
  · refine fun h => ⟨fun pre j post hcs hj hrows r hr hkept => ?_, fun hi hrows r hr hk => ?_⟩
    · refine h pre j (post ++ [i]) (by rw [hcs, List.append_assoc, List.cons_append]) hj hrows r hr
        ?_
      rw [he, hpost hcs]
      omega
    · exact h cs i [] rfl hi hrows r hr (by rw [dropped]; omega)
  · rintro ⟨hold, hnew⟩ pre j post hcs hj hrows r hr hkept
    rcases List.eq_nil_or_concat post with rfl | ⟨post, i', rfl⟩
    · obtain ⟨rfl, hsingle⟩ := List.append_inj' hcs rfl
      obtain rfl : i = j := List.head_eq_of_cons_eq hsingle
      exact hnew hj hrows r hr (by rw [dropped] at hkept; omega)
    · rw [List.concat_eq_append, ← List.cons_append, ← List.append_assoc] at hcs
      obtain ⟨hinit, hsingle⟩ := List.append_inj' hcs rfl
      obtain rfl : i = i' := List.head_eq_of_cons_eq hsingle
      refine hold pre j post hinit hj hrows r hr ?_
      rw [List.concat_eq_append, he, hpost hinit] at hkept
      omega

/-- What holds when `cs` has been typed: the printed document and the clamped one are
parallel, and what the screen shows above the last dropped row is blank exactly if it was
when rows were dropped. -/
structure Followed (cs : List Input) (b : ℕ) : Prop where
  printed : (typed cs .empty).Sound
  clamped : (typedClamped cs .empty).Sound
  parallel : Parallel (typed cs .empty) (typedClamped cs .empty) b (dropped cs .empty)
  blank_iff : ∀ k, (∀ r < b, k ≤ r → ∀ c < 80, (typedClamped cs .empty).window r c = blank) ↔
    BlankAbove k cs

/-- One character drops the rows between its own and the window. -/
theorem dropped_concat (cs : List Input) (i : Input) : dropped (cs ++ [i]) .empty =
    dropped cs .empty + if Printable i.char then (typed cs .empty).excess else 0 := by
  rw [dropped_append]
  rfl

/-- Before the first character both documents are empty. -/
theorem followed_nil : Followed [] 0 where
  printed := ⟨Nat.zero_lt_succ 79, fun _ => rfl, fun _ _ _ => rfl⟩
  clamped := ⟨Nat.zero_lt_succ 79, fun _ => rfl, fun _ _ _ => rfl⟩
  parallel := ⟨rfl, rfl, rfl, le_rfl, Nat.zero_le 24, fun _ _ _ _ _ => rfl,
    fun _ hr => absurd hr (Nat.not_lt_zero _)⟩
  blank_iff := fun _ => ⟨fun _ pre i post hcs => absurd hcs.symm
      (List.append_ne_nil_of_right_ne_nil pre (List.cons_ne_nil i post)),
    fun _ _ hr => absurd hr (Nat.not_lt_zero _)⟩

namespace Followed

variable {cs : List Input} {i : Input} {b : ℕ}

/-- A character that is not stored moves no window. -/
theorem mark (h : Followed cs b) (hi : ¬ Printable i.char) : Followed (cs ++ [i]) b := by
  have hwindow := fun d : Document => d.window_of_mark hi i.fg i.bg
  have hconcat : ∀ k, BlankAbove k (cs ++ [i]) ↔ BlankAbove k cs := fun k => by
    rw [blankAbove_concat (e := 0) k (by rw [typed_concat, (hwindow _).1, if_neg hi]; rfl)]
    exact ⟨And.left, fun h => ⟨h, fun hprintable => absurd hprintable hi⟩⟩
  have hclamped := h.clamped.typeClamped i.char i.fg i.bg
  constructor <;> simp only [typed_concat, typedClamped_concat]
  · exact h.printed.type ..
  · exact hclamped
  · rw [dropped_concat, if_neg hi, Nat.add_zero, Document.typeClamped_of_mark _ hi]
    exact h.parallel.mark hi i.fg i.bg
  · intro k
    rw [hconcat, ← h.blank_iff, Document.typeClamped_of_mark _ hi]
    simp only [(hwindow _).2]

/-- A character before which no row is dropped scrolls both windows alike. -/
theorem store (h : Followed cs b) (hi : Printable i.char)
    (hrows : (typed cs .empty).row ≤ (typed cs .empty).top + 25) :
    Followed (cs ++ [i]) (b - ((typed cs .empty).topAfter - (typed cs .empty).top)) := by
  obtain ⟨hP, hQ, hpar, hblank⟩ := h
  have htop := hpar.top
  have hrow := hpar.row
  have hexcess : (typed cs .empty).excess = 0 := Nat.sub_eq_zero_of_le hrows
  have hclamp : (typedClamped cs .empty).typeClamped i.char i.fg i.bg =
      (typedClamped cs .empty).type i.char i.fg i.bg := by
    rw [Document.typeClamped_of_printable _ hi, Document.clamp_of_le (by omega)]
  have hmoved : (typed cs .empty).top ≤ (typed cs .empty).topAfter := le_max_left _ _
  have hlow := hpar.low
  have hafter := hpar.topAfter
  have hconcat : ∀ k, BlankAbove k (cs ++ [i]) ↔
      BlankAbove (k + ((typed cs .empty).topAfter - (typed cs .empty).top)) cs := fun k => by
    rw [blankAbove_concat k (by
      rw [typed_concat, Document.type_top _ hi, if_pos hi, hexcess]
      exact (Nat.add_sub_of_le hmoved).symm)]
    exact ⟨And.left, fun h => ⟨h, fun _ hlt => absurd hlt (Nat.not_lt.2 hrows)⟩⟩
  constructor <;> simp only [typed_concat, typedClamped_concat, hclamp]
  · exact hP.type ..
  · exact hQ.type ..
  · rw [dropped_concat, if_pos hi, hexcess, Nat.add_zero]
    exact hpar.store hP hQ hi i.fg i.bg
  · intro k
    -- above the last dropped row the window has only moved
    have hold : ∀ r, r < b - ((typed cs .empty).topAfter - (typed cs .empty).top) → ∀ c,
        ((typedClamped cs .empty).type i.char i.fg i.bg).window r c =
          (typedClamped cs .empty).window
            ((typed cs .empty).topAfter - (typed cs .empty).top + r) c := by
      intro r hr c
      rw [Document.window_type _ hi, if_neg (by omega)]
      congr 1
      omega
    rw [hconcat, ← hblank]
    constructor
    · intro hnew r hr hk c hc
      have hrow := hnew (r - ((typed cs .empty).topAfter - (typed cs .empty).top)) (by omega)
        (by omega) c hc
      rw [hold _ (by omega), Nat.add_sub_of_le (by omega)] at hrow
      exact hrow
    · intro hold' r hr hk c hc
      rw [hold r hr]
      exact hold' _ (by omega) (by omega) c hc

/-- A character before which rows are dropped: what is shown moves up by one row. -/
theorem drop (h : Followed cs b) (hi : Printable i.char)
    (hrows : (typed cs .empty).top + 25 < (typed cs .empty).row) : Followed (cs ++ [i]) 24 := by
  obtain ⟨hP, hQ, hpar, hblank⟩ := h
  have htop := hpar.top
  have hrow := hpar.row
  have hbound := hpar.bound
  have hcolP : (typed cs .empty).col = 0 := hP.below hrows.le
  have hconcat : ∀ k, BlankAbove k (cs ++ [i]) ↔ BlankAbove (k + 1) cs ∧
      (Printable i.char → (typed cs .empty).top + 25 < (typed cs .empty).row →
        ∀ r < 25, k < r → ∀ c < 80, (typed cs .empty).window r c = blank) := fun k =>
    blankAbove_concat k (by
      rw [typed_concat, Document.type_top _ hi, if_pos hi,
        Document.topAfter_of_below hcolP hrows.le, Document.excess]
      omega)
  have hclamped := hQ.typeClamped i.char i.fg i.bg
  constructor <;> simp only [typed_concat, typedClamped_concat]
  · exact hP.type ..
  · exact hclamped
  · rw [dropped_concat, if_pos hi, Document.typeClamped_of_printable _ hi]
    exact hpar.drop hP hQ hrows hi i.fg i.bg
  · intro k
    have hold : ∀ r < 24, ∀ c,
        ((typedClamped cs .empty).typeClamped i.char i.fg i.bg).window r c =
          (typedClamped cs .empty).window (1 + r) c := fun r hr c => by
      rw [Document.typeClamped_of_printable _ hi,
        Document.window_clamp_type (hpar.col.symm.trans hcolP) (by omega) hi _ _ hr]
    have hmoved : (∀ r < 24, k ≤ r → ∀ c < 80,
        ((typedClamped cs .empty).typeClamped i.char i.fg i.bg).window r c = blank) ↔
          ∀ r < 25, k < r → ∀ c < 80, (typedClamped cs .empty).window r c = blank := by
      constructor
      · intro hnew r hr hk c hc
        have hrow := hnew (r - 1) (by omega) (by omega) c hc
        rwa [hold _ (by omega), Nat.add_sub_of_le (by omega)] at hrow
      · intro hQ r hr hk c hc
        rw [hold r hr]
        exact hQ _ (by omega) (by omega) c hc
    rw [hmoved, hpar.blank_iff, hconcat, ← hblank]
    exact and_congr Iff.rfl ⟨fun h _ _ => h, fun h => h hi hrows⟩

end Followed

/-- **The run lemma.**  Behind every text the clamped document goes along with the
printed one. -/
theorem followed (cs : List Input) : ∃ b, Followed cs b := by
  induction cs using List.reverseRecOn with
  | nil => exact ⟨0, followed_nil⟩
  | append_singleton cs i ih =>
    obtain ⟨b, h⟩ := ih
    by_cases hi : Printable i.char
    · rcases Nat.lt_or_ge ((typed cs .empty).top + 25) (typed cs .empty).row with hrows | hrows
      · exact ⟨_, h.drop hi hrows⟩
      · exact ⟨_, h.store hi hrows⟩
    · exact ⟨b, h.mark hi⟩

/-- A screen that shows the clamped document shows the plain one exactly where no visible
blank row has been lost. -/
theorem Shows.typed_iff {cs : List Input} {s : Screen} (h : Shows (typedClamped cs .empty) s) :
    (∀ r < 25, ∀ c < 80, cell s.ram.bytes r c = (typed cs .empty).window r c) ↔
      NothingLost cs := by
  obtain ⟨b, hfollowed⟩ := followed cs
  have hblank := hfollowed.blank_iff 0
  simp only [Nat.zero_le, true_implies] at hblank
  rw [NothingLost, ← hblank, ← hfollowed.parallel.same_iff]
  constructor
  · intro heq r hr c hc
    rw [← h.window r hr c hc, heq r hr c hc]
  · intro heq r hr c hc
    rw [h.window r hr c hc, heq r hr c hc]

/-- **When the screen is a window on the printed document.**  After `clrscr` and any
characters with at most 200 newlines in a row, video memory shows the document in which
every newline opens a row exactly if no visible newline is lost. -/
theorem screen_shows_typed_iff (s : Screen) (cs : List Input) (h : ShortRuns 200 cs) :
    (∀ r < 25, ∀ c < 80,
      cell (typeOn cs (clrscr s)).ram.bytes r c = (typed cs .empty).window r c) ↔
        NothingLost cs :=
  (shows_typed cs s h).typed_iff

/-- No newline is lost at all where the cursor never gets further than one row below the
window. -/
theorem nothingLost_of_dropped {cs : List Input} (h : dropped cs .empty = 0) : NothingLost cs := by
  rintro pre i post rfl hi hrows
  rw [dropped_append, dropped, if_pos hi, Document.excess] at h
  omega

/-- `'A'` on the last row, one newline, `'B'`. -/
def oneNewline : List Input :=
  List.replicate 24 ⟨newline, .white, .black⟩ ++
    [⟨0x41, .white, .black⟩, ⟨newline, .white, .black⟩, ⟨0x42, .white, .black⟩]

/-- There are fewer than 200 newlines. -/
theorem shortRuns_oneNewline : ShortRuns 200 oneNewline := fun seg hseg _ => by
  have h1 : seg.length ≤ 27 := hseg.length_le
  have h2 := List.countP_le_length (p := fun i : Input => decide (i.char = newline)) (l := seg)
  omega

/-- With one newline in hand nothing is lost, and the screen shows the document. -/
theorem screen_shows_typed_iff_oneNewline : NothingLost oneNewline ∧ ∀ r < 25, ∀ c < 80,
    cell (typeOn oneNewline (clrscr (boot fun _ => 0))).ram.bytes r c =
      (typed oneNewline .empty).window r c := by
  have hlost : NothingLost oneNewline := nothingLost_of_dropped (by decide)
  exact ⟨hlost, (screen_shows_typed_iff (boot fun _ => 0) oneNewline shortRuns_oneNewline).2 hlost⟩

end Console
end DrewOS
