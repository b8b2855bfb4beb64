/-
# Whether output moves forward

The position of a stored character is counted in the document, whose rows are the
rows of the screen and those that have been scrolled off it: `80 * (row + S) + column`
after `S` scrolls.  `Traced` is the console together with the scrolls so far and the
positions of the characters stored so far; it is only watched (`traced_screen`).

Without `'\r'`, a character is stored right behind the one before it, or, after
newlines, at the start of the row that they have led to.  That row is counted in a
byte.  Where the count passes 255 it starts again at the top of the screen, and the
text goes on there unless it is below the last character all the same (`Forward`).
-/

import DrewOS.Console.Document

namespace DrewOS
namespace Console

open ByteMem

/-! ### Positions -/

/-- The position of the cursor of `s` in the document, after `n` scrolls. -/
def position (s : Screen) (n : ℕ) : ℕ := 80 * (s.y.toNat + n) + s.x.toNat

/-- How many rows `handle_scrolling` scrolls. -/
def scrollsIn (s : Screen) : ℕ := if s.y.toNat < NROW then 0 else 1

/-- The console, how many rows it has scrolled, and where it has stored characters. -/
structure Traced where
  screen : Screen
  scrolled : ℕ
  stored : List ℕ

namespace Traced

/-- Where the next character is stored. -/
def next (t : Traced) : ℕ := position (handleScrolling t.screen) (t.scrolled + scrollsIn t.screen)

/-- `write_char`, watched. -/
def write (t : Traced) (i : Input) : Traced :=
  if Printable i.char then
    let stored := storeChar i.char i.fg i.bg (handleScrolling t.screen)
    { screen := handleScrolling stored
      scrolled := t.scrolled + scrollsIn t.screen + scrollsIn stored
      stored := t.stored ++ [t.next] }
  else { t with screen := writeChar i.char i.fg i.bg t.screen }

theorem write_screen (t : Traced) (i : Input) :
    (t.write i).screen = writeChar i.char i.fg i.bg t.screen := by
  unfold write
  split_ifs with hi
  · rw [writeChar_printable hi]
  · rfl

end Traced

/-- The console after `clrscr` and the characters, watched. -/
def traced (cs : List Input) (s : Screen) : Traced := cs.foldl Traced.write ⟨clrscr s, 0, []⟩

/-- One character more is written behind the others. -/
theorem traced_concat (cs : List Input) (i : Input) (s : Screen) :
    traced (cs ++ [i]) s = (traced cs s).write i := by
  rw [traced, List.foldl_append]
  rfl

/-- Watching the console does not change it. -/
theorem traced_screen (cs : List Input) (s : Screen) :
    (traced cs s).screen = typeOn cs (clrscr s) := by
  induction cs using List.reverseRecOn with
  | nil => rfl
  | append_singleton cs i ih =>
    rw [traced_concat, Traced.write_screen, ih, typeOn, typeOn, List.foldl_append]
    rfl

/-- Any characters leave the cursor settled. -/
theorem settled_typeOn {s : Screen} (h : Settled s) (cs : List Input) :
    Settled (typeOn cs s) := by
  induction cs generalizing s with
  | nil => exact h
  | cons i cs ih => exact ih (call_settled (.writeChar i.char i.fg i.bg) h).1

/-- `clrscr` puts the cursor into the first cell. -/
theorem settled_clrscr (s : Screen) : Settled (clrscr s) :=
  ⟨show (0 : Byte).toNat < 80 by decide, fun _ => rfl⟩

/-- Any characters leave the cursor settled. -/
theorem settled_traced (cs : List Input) (s : Screen) : Settled (traced cs s).screen := by
  rw [traced_screen]
  exact settled_typeOn (settled_clrscr s) cs

/-! ### One character -/

namespace Traced

variable {t : Traced}

/-- On the screen, a character is stored at the cursor. -/
theorem next_of_lt (h : t.screen.y.toNat < 25) : t.next = position t.screen t.scrolled := by
  have hscrolls : scrollsIn t.screen = 0 := if_pos h
  rw [next, handleScrolling_of_lt h, hscrolls, Nat.add_zero]

/-- Below the screen, a character is stored in the first cell of the new row. -/
theorem next_of_ge (h : 25 ≤ t.screen.y.toNat) : t.next = 80 * (25 + t.scrolled) := by
  have hscrolls : scrollsIn t.screen = 1 := if_neg (Nat.not_lt.2 h)
  rw [next, handleScrolling_of_ge h, hscrolls]
  show 80 * (24 + (t.scrolled + 1)) + 0 = _
  omega

/-- Only a printable character is stored. -/
theorem write_stored {i : Input} (hi : Printable i.char) :
    (t.write i).stored = t.stored ++ [t.next] := by
  rw [write, if_pos hi]

/-- **The cursor moves on by one position** when a character is stored. -/
theorem write_position (h : Settled t.screen) {i : Input} (hi : Printable i.char) :
    position (t.write i).screen (t.write i).scrolled = t.next + 1 := by
  have hv := visible_handleScrolling h
  have hp := hv.pos_lt
  have hx := storeChar_x i.char i.fg i.bg hv
  have hy := storeChar_y i.char i.fg i.bg hv
  have hnext : t.next = pos (handleScrolling t.screen) +
      80 * (t.scrolled + scrollsIn t.screen) := by
    unfold next position pos
    omega
  rw [write, if_pos hi, hnext]
  unfold position
  dsimp only
  rcases Nat.lt_or_ge (storeChar i.char i.fg i.bg (handleScrolling t.screen)).y.toNat 25
    with hrow | hrow
  · have hscrolls : scrollsIn (storeChar i.char i.fg i.bg (handleScrolling t.screen)) = 0 :=
      if_pos hrow
    rw [handleScrolling_of_lt hrow, hscrolls, hx, hy]
    omega
  · have hscrolls : scrollsIn (storeChar i.char i.fg i.bg (handleScrolling t.screen)) = 1 :=
      if_neg (Nat.not_lt.2 hrow)
    rw [handleScrolling_of_ge hrow, hscrolls]
    show 80 * (24 + _) + 0 = _
    omega

/-- Behind a printable character the cursor is on the screen. -/
theorem write_visible (h : Settled t.screen) {i : Input} (hi : Printable i.char) :
    Visible (t.write i).screen := by
  rw [write_screen]
  exact writeChar_visible hi i.fg i.bg h

end Traced

/-! ### Newlines -/

/-- The screen after `n` newlines. -/
def opened (n : ℕ) (s : Screen) : Screen :=
  { s with x := if n = 0 then s.x else 0, y := s.y + BitVec.ofNat 8 n }

theorem opened_zero (s : Screen) : opened 0 s = s := by
  simp [opened]

/-- Newlines change the cursor only. -/
theorem foldl_newlines {mid : List Input} (hmid : ∀ i ∈ mid, i.char = newline) (t : Traced) :
    mid.foldl Traced.write t = { t with screen := opened mid.length t.screen } := by
  induction mid using List.reverseRecOn with
  | nil =>
    rw [List.length_nil, opened_zero]
    rfl
  | append_singleton mid i ih =>
    have hi : i.char = newline := hmid i (List.mem_append_right _ (List.mem_singleton_self i))
    have hrest := ih fun j hj => hmid j (List.mem_append_left _ hj)
    have hprintable : ¬ Printable i.char := fun h => h.1 hi
    have hy : t.screen.y + BitVec.ofNat 8 (mid.length + 1) =
        t.screen.y + BitVec.ofNat 8 mid.length + 1 := by
      rw [BitVec.ofNat_add, BitVec.add_assoc]
      rfl
    rw [List.foldl_append, hrest, List.length_append, List.length_singleton]
    show Traced.write _ i = _
    rw [Traced.write, if_neg hprintable, writeChar, if_pos hi]
    unfold opened
    rw [if_neg (Nat.succ_ne_zero _), hy]

/-- From a cursor on the screen, `m` newlines do not lead back: there are none, or they
lead below the screen, below the row of the cursor, or to its start. -/
def Forward (s : Screen) (m : ℕ) : Prop :=
  m = 0 ∨ 25 ≤ (s.y.toNat + m) % 256 ∨ s.y.toNat < (s.y.toNat + m) % 256 ∨
    ((s.y.toNat + m) % 256 = s.y.toNat ∧ s.x = 0)

instance (s : Screen) (m : ℕ) : Decidable (Forward s m) :=
  inferInstanceAs (Decidable (_ ∨ _ ∨ _ ∨ _))

/-- The count does not pass 255 from a row of the screen. -/
theorem forward_of_le {s : Screen} (h : Visible s) {m : ℕ} (hm : m ≤ 231) : Forward s m := by
  have hrow := h.row
  unfold Forward
  omega

/-- **The next position is not before the cursor** just when the newlines lead forward. -/
theorem position_le_next_iff {t : Traced} (h : Visible t.screen) (m : ℕ) :
    position t.screen t.scrolled ≤ Traced.next { t with screen := opened m t.screen } ↔
      Forward t.screen m := by
  have hrow := h.row
  have hcol := h.column
  have hzero : t.screen.x = 0 ↔ t.screen.x.toNat = 0 := BitVec.toNat_inj.symm
  rcases Nat.eq_zero_or_pos m with rfl | hm
  · rw [opened_zero, Traced.next_of_lt hrow]
    exact iff_of_true le_rfl (.inl rfl)
  have hy : (opened m t.screen).y.toNat = (t.screen.y.toNat + m) % 256 := by
    show (t.screen.y + BitVec.ofNat 8 m).toNat = _
    rw [BitVec.toNat_add, BitVec.toNat_ofNat, Nat.add_mod_mod]
  have hx : (opened m t.screen).x.toNat = 0 := by
    show (if m = 0 then t.screen.x else 0).toNat = 0
    rw [if_neg hm.ne']
    rfl
  unfold Forward
  rw [hzero]
  rcases Nat.lt_or_ge (opened m t.screen).y.toNat 25 with hlt | hge
  · rw [Traced.next_of_lt hlt]
    unfold position
    dsimp only
    rw [hx]
    omega
  · rw [Traced.next_of_ge hge]
    unfold position
    dsimp only
    omega

/-! ### All characters -/

/-- A text without `'\r'` has no printable character, or a last one, with newlines behind it. -/
theorem exists_last {cs : List Input} (hcs : ∀ i ∈ cs, i.char ≠ carriageReturn) :
    (∀ i ∈ cs, i.char = newline) ∨
      ∃ pre i mid, cs = pre ++ i :: mid ∧ Printable i.char ∧ ∀ j ∈ mid, j.char = newline := by
  induction cs with
  | nil => exact .inl fun _ hi => absurd hi List.not_mem_nil
  | cons i cs ih =>
    rcases ih fun j hj => hcs j (List.mem_cons_of_mem _ hj) with hall | ⟨pre, j, mid, rfl, hj⟩
    · by_cases hi : i.char = newline
      · exact .inl (List.forall_mem_cons.2 ⟨hi, hall⟩)
      · exact .inr ⟨[], i, cs, rfl, ⟨hi, hcs i (List.mem_cons_self ..)⟩, hall⟩
    · exact .inr ⟨i :: pre, j, mid, rfl, hj⟩

/-- Newlines store nothing. -/
theorem traced_newlines {cs : List Input} (hcs : ∀ i ∈ cs, i.char = newline) (s : Screen) :
    (traced cs s).stored = [] := by
  rw [traced, foldl_newlines hcs]

/-- The characters up to a printable one, and newlines behind it. -/
theorem traced_line {mid : List Input} (hmid : ∀ j ∈ mid, j.char = newline) (pre : List Input)
    (i : Input) (s : Screen) :
    traced (pre ++ i :: mid) s =
      { traced (pre ++ [i]) s with
        screen := opened mid.length (typeOn (pre ++ [i]) (clrscr s)) } := by
  have hsplit : pre ++ i :: mid = (pre ++ [i]) ++ mid := by simp
  rw [hsplit, traced, List.foldl_append, foldl_newlines hmid, ← traced_screen]
  rfl

/-- Whether a printable character is stored behind all that were stored before. -/
theorem stored_lt_next_iff {cs : List Input} (hcs : ∀ i ∈ cs, i.char ≠ carriageReturn)
    (s : Screen) (hsorted : (traced cs s).stored.Pairwise (· < ·)) :
    (∀ q ∈ (traced cs s).stored, q < (traced cs s).next) ↔
      ∀ pre i mid, cs = pre ++ i :: mid → Printable i.char → (∀ j ∈ mid, j.char = newline) →
        Forward (typeOn (pre ++ [i]) (clrscr s)) mid.length := by
  -- the last character stored is the last printable one, in every way to split the text
  have hline : ∀ pre i mid, cs = pre ++ i :: mid → Printable i.char →
      (∀ j ∈ mid, j.char = newline) →
        ((∀ q ∈ (traced cs s).stored, q < (traced cs s).next) ↔
          Forward (typeOn (pre ++ [i]) (clrscr s)) mid.length) := by
    rintro pre i mid rfl hi hmid
    have hsettled := settled_traced pre s
    have hposition := Traced.write_position hsettled hi
    have hvisible := Traced.write_visible hsettled hi
    have hstored := Traced.write_stored (t := traced pre s) hi
    rw [← traced_concat] at hposition hvisible hstored
    have hforward := position_le_next_iff hvisible mid.length
    rw [hposition, traced_screen] at hforward
    rw [traced_line hmid] at hsorted ⊢
    dsimp only at hsorted ⊢
    rw [hstored] at hsorted ⊢
    rw [← hforward, Nat.succ_le_iff]
    refine ⟨fun h => h _ (List.mem_append_right _ (List.mem_singleton_self _)), fun h q hq => ?_⟩
    rcases List.mem_append.1 hq with hq | hq
    · exact ((List.pairwise_append.1 hsorted).2.2 q hq _ (List.mem_singleton_self _)).trans h
    · rw [List.mem_singleton.1 hq]
      exact h
  constructor
  · exact fun h pre i mid he hi hmid => (hline pre i mid he hi hmid).1 h
  · intro h
    rcases exists_last hcs with hall | ⟨pre, i, mid, he, hi, hmid⟩
    · rw [traced_newlines hall]
      exact fun _ hq => absurd hq List.not_mem_nil
    · exact (hline pre i mid he hi hmid).2 (h pre i mid he hi hmid)

/-- The newlines between a printable character and the next one never lead back. -/
def Onward (cs : List Input) (s : Screen) : Prop :=
  ∀ pre i mid j post, cs = pre ++ i :: (mid ++ j :: post) → Printable i.char →
    (∀ k ∈ mid, k.char = newline) → Printable j.char →
      Forward (typeOn (pre ++ [i]) (clrscr s)) mid.length

/-- A text with one more character has the pairs of the text, and those with the new one. -/
theorem onward_concat_iff (cs : List Input) (c : Input) (s : Screen) :
    Onward (cs ++ [c]) s ↔ Onward cs s ∧ (Printable c.char →
      ∀ pre i mid, cs = pre ++ i :: mid → Printable i.char → (∀ j ∈ mid, j.char = newline) →
        Forward (typeOn (pre ++ [i]) (clrscr s)) mid.length) := by
  constructor
  · refine fun h => ⟨?_, ?_⟩
    · rintro pre i mid j post rfl
      exact h pre i mid j (post ++ [c]) (by simp)
    · rintro hc pre i mid rfl hi hmid
      exact h pre i mid c [] (by simp) hi hmid hc
  · rintro ⟨hinit, hlast⟩ pre i mid j post he hi hmid hj
    rcases List.eq_nil_or_concat post with rfl | ⟨post', c', rfl⟩
    · have he' : cs ++ [c] = (pre ++ i :: mid) ++ [j] := by
        rw [he]
        simp
      obtain ⟨rfl, hcj⟩ := List.append_inj' he' rfl
      obtain rfl : c = j := List.singleton_inj.1 hcj
      exact hlast hj pre i mid rfl hi hmid
    · have he' : cs ++ [c] = (pre ++ i :: (mid ++ j :: post')) ++ [c'] := by
        rw [he]
        simp
      exact hinit pre i mid j post' (List.append_inj' he' rfl).1 hi hmid hj

/-- **When output moves forward.**  After `clrscr`, for every text without `'\r'`: the
positions at which its printable characters are stored increase if and only if the
newlines between one of them and the next never lead back. -/
theorem stored_increasing_iff {cs : List Input} (hcs : ∀ i ∈ cs, i.char ≠ carriageReturn)
    (s : Screen) : (traced cs s).stored.Pairwise (· < ·) ↔ Onward cs s := by
  induction cs using List.reverseRecOn with
  | nil =>
    refine iff_of_true List.Pairwise.nil ?_
    intro pre i mid j post he
    simp at he
  | append_singleton cs c ih =>
    have hinit : ∀ i ∈ cs, i.char ≠ carriageReturn := fun i hi =>
      hcs i (List.mem_append_left _ hi)
    rw [onward_concat_iff, ← ih hinit, traced_concat]
    by_cases hc : Printable c.char
    · rw [Traced.write_stored hc, List.pairwise_append]
      constructor
      · rintro ⟨hsorted, -, hlt⟩
        have hnext := (stored_lt_next_iff hinit s hsorted).1 fun q hq =>
          hlt q hq _ (List.mem_singleton_self _)
        exact ⟨hsorted, fun _ => hnext⟩
      · rintro ⟨hsorted, hnext⟩
        have hlt := (stored_lt_next_iff hinit s hsorted).2 (hnext hc)
        refine ⟨hsorted, List.pairwise_singleton _ _, fun q hq r hr => ?_⟩
        rw [List.mem_singleton.1 hr]
        exact hlt q hq
    · have hstored : ((traced cs s).write c).stored = (traced cs s).stored := by
        rw [Traced.write, if_neg hc]
      rw [hstored]
      exact ⟨fun h => ⟨h, fun hc' => absurd hc' hc⟩, And.left⟩

/-- 231 newlines in a row never lead back. -/
theorem onward_of_shortRuns {cs : List Input} (h : ShortRuns 231 cs) (s : Screen) :
    Onward cs s := by
  rintro pre i mid j post rfl hi hmid -
  have hvisible : Visible (typeOn (pre ++ [i]) (clrscr s)) := by
    rw [typeOn, List.foldl_append]
    exact writeChar_visible hi i.fg i.bg (settled_typeOn (settled_clrscr s) pre)
  have hinfix : mid <:+: pre ++ i :: (mid ++ j :: post) := ⟨pre ++ [i], j :: post, by simp⟩
  have hcount := h mid hinfix fun k hk hp => hp.1 (hmid k hk)
  rw [List.countP_eq_length.2 fun k hk => decide_eq_true (hmid k hk)] at hcount
  exact forward_of_le hvisible hcount

/-- `'A'`, a newline, `'B'`. -/
theorem stored_increasing_iff_lines :
    (traced [⟨0x41, .white, .black⟩, ⟨newline, .white, .black⟩, ⟨0x42, .white, .black⟩]
      (boot fun _ => 0)).stored.Pairwise (· < ·) := by
  refine (stored_increasing_iff (by decide) _).2 (onward_of_shortRuns (fun seg hseg _ => ?_) _)
  have hlength : seg.length ≤ 3 := hseg.length_le
  have hcount := List.countP_le_length (p := fun i : Input => decide (i.char = newline)) (l := seg)
  omega

/-- `'A'` in the first cell, 256 newlines, `'B'`. -/
def fullTurn : List Input :=
  [] ++ ⟨0x41, .white, .black⟩ :: List.replicate 256 ⟨newline, .white, .black⟩ ++
    [⟨0x42, .white, .black⟩]

/-- **The count of the rows comes round**, and `'B'` is not stored behind `'A'`. -/
theorem not_increasing_fullTurn :
    ¬ (traced fullTurn (boot fun _ => 0)).stored.Pairwise (· < ·) := by
  have hnewlines : ∀ i ∈ List.replicate 256 (⟨newline, .white, .black⟩ : Input),
      i.char = newline := fun i hi => congrArg Input.char (List.eq_of_mem_replicate hi)
  have hback : ¬ Forward (typeOn ([] ++ [⟨0x41, .white, .black⟩]) (clrscr (boot fun _ => 0)))
      256 := by decide
  intro h
  rw [fullTurn, traced_concat, Traced.write_stored (by decide), List.pairwise_append] at h
  have hforward := (stored_lt_next_iff ?_ _ h.1).1 ?_ _ _ _ rfl (by decide) hnewlines
  · rw [List.length_replicate] at hforward
    exact hback hforward
  · rintro i hi hreturn
    rcases List.mem_cons.1 hi with rfl | hi
    · exact absurd hreturn (by decide)
    · exact absurd ((hnewlines i hi).symm.trans hreturn) (by decide)
  · exact fun q hq => h.2.2 q hq _ (List.mem_singleton_self _)

end Console
end DrewOS
