/-
# What a call of `cprint` prints

The kernel's code asks for prints as a format with its arguments (`Message`), the
printing code takes an address and words from the stack.  `Message.output` is the text
of a call, `none` where an argument is missing, left over or of the wrong kind, and
`run_call` says that `_cprint` writes that text when the format and its arguments lie
in memory.
-/

import DrewOS.Console.Document
import DrewOS.Console.Print
import DrewOS.Kernel.Machine

namespace DrewOS

open ByteMem Effect Console
open Printing (percent charC charS charD charX HoldsString Converts Renders)

/-! ### Texts -/

namespace Printing

/-- The text of a conversion that takes an argument. -/
def converted (c : Byte) : Arg → Option (List Byte)
  | .int v =>
    if c = charC then some [v.setWidth 8]
    else if c = charD then some (numeral 10 v)
    else if c = charX then some (numeral 16 v)
    else none
  | .str s => if c = charS then some (ascii s) else none

/-- The text of a format with its arguments. -/
def render : List Byte → List Arg → Option (List Byte)
  | [], [] => some []
  | [], _ :: _ => none
  | [c], args => if c = percent then none else (render [] args).map (c :: ·)
  | c :: d :: fmt, args =>
    if c ≠ percent then (render (d :: fmt) args).map (c :: ·)
    else if d = percent then (render fmt args).map (percent :: ·)
    else match args with
      | [] => none
      | a :: args => (converted d a).bind fun piece => (render fmt args).map (piece ++ ·)

/-- A character that is no `%` stands for itself. -/
theorem render_literal {c : Byte} (hc : c ≠ percent) (fmt : List Byte) (args : List Arg) :
    render (c :: fmt) args = (render fmt args).map (c :: ·) := by
  cases fmt with
  | nil => rw [render, if_neg hc]
  | cons d fmt => cases args <;> rw [render, if_pos hc]

/-- `%%` stands for one `%`. -/
theorem render_percent (fmt : List Byte) (args : List Arg) :
    render (percent :: percent :: fmt) args = (render fmt args).map (percent :: ·) := by
  cases args <;> rfl

/-- What a format prints beside its conversions. -/
def literals : List Byte → List Byte
  | [] => []
  | [c] => [c]
  | c :: d :: fmt => if c = percent then literals fmt else c :: literals (d :: fmt)

/-- The characters of its conversions. -/
def conversions : List Byte → List Byte
  | c :: d :: fmt => if c = percent then d :: conversions fmt else conversions (d :: fmt)
  | _ => []

end Printing

/-- The text of a call, `'\n'` included. -/
def Message.output (m : Message) : Option (List Byte) :=
  (Printing.render (ascii m.text) m.args).map fun text =>
    text ++ if m.newline then [Console.newline] else []

/-- The characters that reach `write_char`. -/
def Message.inputs (m : Message) : List Input :=
  (m.output.getD []).map fun c => ⟨c, m.fg, m.bg⟩

example : (⟨"%s: %c", .white, .black, [.str "PS/2", .int 0x31], true⟩ : Message).output =
    some (ascii "PS/2: 1" ++ [newline]) := by decide

/-! ### The printing code -/

namespace Printing

/-- The argument as it is passed: a number, or the address of a text. -/
def Passed (m : Mem) : Arg → Dword → Prop
  | .int v, w => w = v
  | .str s, w => HoldsString m w (ascii s)

/-- What the formatted text says is what `_cprint` writes for the argument. -/
theorem converts_of_converted {m : Mem} {c : Byte} {a : Arg} {text : List Byte}
    (h : converted c a = some text) {w : Dword} (hw : Passed m a w) : Converts m c [w] text := by
  cases a with
  | int v =>
    obtain rfl : w = v := hw
    rw [converted] at h
    split_ifs at h with hc hd hx
    · obtain rfl := Option.some.inj h
      exact hc ▸ .char w
    · obtain rfl := Option.some.inj h
      exact hd ▸ .decimal w
    · obtain rfl := Option.some.inj h
      exact hx ▸ .hex w
  | str s =>
    rw [converted] at h
    split_ifs at h with hs
    obtain rfl := Option.some.inj h
    exact hs ▸ .string hw

/-- **The text is that of the reference.** -/
theorem renders_of_render {m : Mem} (fmt : List Byte) (args : List Arg) {text : List Byte}
    (h : render fmt args = some text) {vs : List Dword}
    (hvs : List.Forall₂ (Passed m) args vs) : Renders m fmt vs text := by
  induction fmt, args using render.induct generalizing vs text with
  | case1 =>
    cases hvs
    obtain rfl := Option.some.inj h
    exact .nil
  | case2 => exact nomatch h
  | case3 args => exact nomatch h
  | case4 c args hc ih =>
    rw [render_literal hc] at h
    obtain ⟨rest, hrest, rfl⟩ := Option.map_eq_some_iff.1 h
    exact .literal hc (ih hrest hvs)
  | case5 c d fmt args hc ih =>
    rw [render_literal hc] at h
    obtain ⟨rest, hrest, rfl⟩ := Option.map_eq_some_iff.1 h
    exact .literal hc (ih hrest hvs)
  | case6 c fmt args hc ih =>
    obtain rfl := not_not.1 hc
    rw [render_percent] at h
    obtain ⟨rest, hrest, rfl⟩ := Option.map_eq_some_iff.1 h
    exact .conversion .percentSign (ih hrest hvs)
  | case7 c d fmt hc hd =>
    rw [render, if_neg hc, if_neg hd] at h
    exact nomatch h
  | case8 c d fmt hc hd a args ih =>
    obtain rfl := not_not.1 hc
    rw [render, if_neg hc, if_neg hd] at h
    obtain ⟨piece, hpiece, h⟩ := Option.bind_eq_some_iff.1 h
    obtain ⟨rest, hrest, rfl⟩ := Option.map_eq_some_iff.1 h
    cases hvs with
    | cons ha hvs => exact .conversion (converts_of_converted hpiece ha) (ih hrest hvs)

/-- `_cprint` or, for a message with `newline`, `_cprintln`. -/
def call (m : Message) (msg : Addr) (buf : Buffer) (n : ℕ) : Print Unit := do
  cprint m.fg m.bg msg buf n
  if m.newline then writeChar newline m.fg m.bg else return ()

/-- **A call prints its text**, and takes the arguments that were passed, and no more. -/
theorem run_call {m : Message} {text : List Byte} (h : m.output = some text) {msg : Addr}
    (hmsg : msg ≠ 0) {w : State} (hfmt : HoldsString w.mem msg (ascii m.text)) {vs : List Dword}
    (hvs : List.Forall₂ (Passed w.mem) m.args vs) {rest : Stream' Dword}
    (hargs : w.args = vs ++ₛ rest) (buf : Buffer) :
    ∃ new k, ∀ n, k < n → (call m msg buf n).run machine w =
      (some (), w.after m.fg m.bg text rest new) := by
  obtain ⟨body, hbody, rfl⟩ := Option.map_eq_some_iff.1 h
  have hrenders := renders_of_render _ _ hbody hvs
  obtain ⟨new, -, hrun⟩ := run_cprintLoop m.fg m.bg hrenders hfmt rfl hargs buf
  refine ⟨new, (ascii m.text).length + body.length, fun n hn => ?_⟩
  rw [call, cprint, if_neg hmsg, Prog.run_bind_of_some machine (hrun n hn)]
  cases hnewline : m.newline with
  | true =>
    rw [if_pos rfl, if_pos rfl, run_writeChar m.fg m.bg, State.after_after, List.append_nil]
    rfl
  | false =>
    rw [if_neg Bool.false_ne_true, if_neg Bool.false_ne_true, List.append_nil]
    rfl

/-! ### Lines -/

/-- A character that only moves the cursor. -/
def control (c : Byte) : Bool := !decide (Printable c)

/-- A printable text has no control character. -/
theorem filter_control_eq_nil {text : List Byte} (h : ∀ c ∈ text, Printable c) :
    text.filter control = [] := by
  refine List.filter_eq_nil_iff.2 fun c hc => ?_
  simp [control, h c hc]

/-- The characters of a numeral are signs, digits and letters. -/
theorem numeral_ge {base : Byte} (hb : 2 ≤ base.toNat) (hb' : base.toNat ≤ 36) {x : Dword}
    {c : Byte} (h : c ∈ numeral base x) : 0x2d ≤ c.toNat := by
  have hdigit : ∀ d < 36, 0x2d ≤ (digitChar d).toNat := by decide
  rw [numeral, List.mem_append, List.mem_append] at h
  rcases h with (h | h) | h
  · split_ifs at h
    · rw [List.mem_singleton.1 h]
      decide
    · exact absurd h List.not_mem_nil
  · unfold getPrefix at h
    split_ifs at h <;> revert h c <;> decide
  · obtain ⟨d, hd, rfl⟩ := List.mem_map.1 h
    have hlt := Numeral.digits_lt_base (by omega) hd
    exact hdigit d (by omega)

/-- The characters from `'-'` on are printable. -/
theorem printable_of_ge {c : Byte} (h : 0x2d ≤ c.toNat) : Printable c := by
  constructor <;> rintro rfl <;> revert h <;> decide

/-- The argument prints nothing that only moves the cursor. -/
def quiet : Arg → Bool
  | .int _ => true
  | .str s => (ascii s).all fun c => decide (Printable c)

/-- But for `%c`, a conversion writes no control character. -/
theorem filter_control_converted {c : Byte} {a : Arg} {text : List Byte}
    (h : converted c a = some text) (hc : c ≠ charC) (ha : quiet a = true) :
    text.filter control = [] := by
  refine filter_control_eq_nil fun d hd => ?_
  cases a with
  | int v =>
    rw [converted, if_neg hc] at h
    split_ifs at h with hdec hhex
    · obtain rfl := Option.some.inj h
      exact printable_of_ge (numeral_ge (by decide) (by decide) hd)
    · obtain rfl := Option.some.inj h
      exact printable_of_ge (numeral_ge (by decide) (by decide) hd)
  | str s =>
    rw [converted] at h
    split_ifs at h
    obtain rfl := Option.some.inj h
    exact of_decide_eq_true (List.all_eq_true.1 ha d hd)

/-- **What moves the cursor is in the format.** -/
theorem filter_control_render (fmt : List Byte) (args : List Arg) {text : List Byte}
    (h : render fmt args = some text) (hfmt : charC ∉ conversions fmt)
    (hargs : ∀ a ∈ args, quiet a = true) :
    text.filter control = (literals fmt).filter control := by
  induction fmt, args using render.induct generalizing text with
  | case1 =>
    obtain rfl := Option.some.inj h
    rfl
  | case2 => exact nomatch h
  | case3 args => exact nomatch h
  | case4 c args hc ih =>
    rw [render_literal hc] at h
    obtain ⟨rest, hrest, rfl⟩ := Option.map_eq_some_iff.1 h
    have htail := ih hrest List.not_mem_nil hargs
    rw [literals, List.filter_cons, List.filter_cons, htail]
    rfl
  | case5 c d fmt args hc ih =>
    rw [render_literal hc] at h
    rw [conversions, if_neg hc] at hfmt
    obtain ⟨rest, hrest, rfl⟩ := Option.map_eq_some_iff.1 h
    rw [literals, if_neg hc, List.filter_cons, List.filter_cons, ih hrest hfmt hargs]
  | case6 c fmt args hc ih =>
    obtain rfl := not_not.1 hc
    rw [render_percent] at h
    rw [conversions, if_pos rfl, List.mem_cons, not_or] at hfmt
    obtain ⟨rest, hrest, rfl⟩ := Option.map_eq_some_iff.1 h
    have hpercent : control percent = false := by decide
    rw [literals, if_pos rfl, List.filter_cons_of_neg (by rw [hpercent]; decide),
      ih hrest hfmt.2 hargs]
  | case7 c d fmt hc hd =>
    rw [render, if_neg hc, if_neg hd] at h
    exact nomatch h
  | case8 c d fmt hc hd a args ih =>
    obtain rfl := not_not.1 hc
    rw [render, if_neg hc, if_neg hd] at h
    rw [conversions, if_pos rfl, List.mem_cons, not_or] at hfmt
    obtain ⟨piece, hpiece, h⟩ := Option.bind_eq_some_iff.1 h
    obtain ⟨rest, hrest, rfl⟩ := Option.map_eq_some_iff.1 h
    obtain ⟨ha, hargs⟩ := List.forall_mem_cons.1 hargs
    rw [literals, if_pos rfl, List.filter_append, ih hrest hfmt.2 hargs,
      filter_control_converted hpiece (Ne.symm hfmt.1) ha, List.nil_append]

/-- What a format prints beside its conversions is printed. -/
theorem mem_of_mem_literals (fmt : List Byte) (args : List Arg) {text : List Byte}
    (h : render fmt args = some text) {c : Byte} (hc : c ∈ literals fmt) : c ∈ text := by
  induction fmt, args using render.induct generalizing text with
  | case1 => exact absurd hc List.not_mem_nil
  | case2 => exact nomatch h
  | case3 args => exact nomatch h
  | case4 d args hd ih =>
    rw [render_literal hd] at h
    obtain ⟨rest, hrest, rfl⟩ := Option.map_eq_some_iff.1 h
    exact List.mem_cons.2 (.inl (List.mem_singleton.1 hc))
  | case5 d e fmt args hd ih =>
    rw [render_literal hd] at h
    rw [literals, if_neg hd] at hc
    obtain ⟨rest, hrest, rfl⟩ := Option.map_eq_some_iff.1 h
    exact List.mem_cons.2 ((List.mem_cons.1 hc).imp_right (ih hrest))
  | case6 d fmt args hd ih =>
    obtain rfl := not_not.1 hd
    rw [render_percent] at h
    rw [literals, if_pos rfl] at hc
    obtain ⟨rest, hrest, rfl⟩ := Option.map_eq_some_iff.1 h
    exact List.mem_cons_of_mem _ (ih hrest hc)
  | case7 d e fmt hd he =>
    rw [render, if_neg hd, if_neg he] at h
    exact nomatch h
  | case8 d e fmt hd he a args ih =>
    obtain rfl := not_not.1 hd
    rw [render, if_neg hd, if_neg he] at h
    rw [literals, if_pos rfl] at hc
    obtain ⟨piece, -, h⟩ := Option.bind_eq_some_iff.1 h
    obtain ⟨rest, hrest, rfl⟩ := Option.map_eq_some_iff.1 h
    exact List.mem_append_right _ (ih hrest hc)

end Printing

/-- A format that its arguments fit, that shows something, and that moves the cursor by
at most one newline. -/
def isLine (fmt : String) (args : List Arg) : Bool :=
  (Printing.render (ascii fmt) args).isSome && args.all Printing.quiet &&
  !(Printing.conversions (ascii fmt)).contains charC &&
  (Printing.literals (ascii fmt)).any (fun c => decide (Printable c)) &&
  !(Printing.literals (ascii fmt)).contains carriageReturn &&
  decide ((Printing.literals (ascii fmt)).count newline ≤ 1)

/-- A text with something to see, at most two newlines and no `'\r'`. -/
structure MessageLine (text : List Byte) : Prop where
  shown : ∃ c ∈ text, Printable c
  returns : carriageReturn ∉ text
  newlines : text.count newline ≤ 2

/-- **Such a message prints a line.** -/
theorem Message.line_of_isLine {m : Message} (h : isLine m.text m.args = true) :
    ∃ text, m.output = some text ∧ MessageLine text := by
  simp only [isLine, Bool.and_eq_true, decide_eq_true_eq, List.all_eq_true,
    List.any_eq_true, Bool.not_eq_true', List.contains_eq_mem, decide_eq_false_iff_not] at h
  obtain ⟨⟨⟨⟨⟨hfits, hargs⟩, hchar⟩, c, hc, hprintable⟩, hreturn⟩, hnewline⟩ := h
  obtain ⟨body, hbody⟩ := Option.isSome_iff_exists.1 hfits
  have hfilter := Printing.filter_control_render _ _ hbody hchar hargs
  -- what moves the cursor is in the format or at the end
  have hmoves : ∀ d, Printing.control d = true →
      body.count d = (Printing.literals (ascii m.text)).count d := fun d hd => by
    rw [← List.count_filter hd, hfilter, List.count_filter hd]
  have hlast : (if m.newline = true then [Console.newline] else []).count Console.newline ≤ 1 := by
    split_ifs <;> decide
  refine ⟨_, congrArg (Option.map _) hbody, ⟨c, ?_, hprintable⟩, fun hmem => ?_, ?_⟩
  · exact List.mem_append_left _ (Printing.mem_of_mem_literals _ _ hbody hc)
  · rcases List.mem_append.1 hmem with hmem | hmem
    · have hpos := List.count_pos_iff.2 hmem
      rw [hmoves carriageReturn (by decide)] at hpos
      exact hreturn (List.count_pos_iff.1 hpos)
    · split_ifs at hmem <;> revert hmem <;> decide
  · rw [List.count_append, hmoves Console.newline (by decide)]
    omega

end DrewOS
