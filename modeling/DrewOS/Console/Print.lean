/-
# Formatted printing

`_cprint` of `src/driver/vga.c`.  The code reads the format and the strings from
memory, takes arguments one after the other, and passes characters on to
`write_char`.  What `itoa` and `itoh` return is ignored by the source; the
program notes it with the buffer they leave, so that it can be talked about.

`Renders m fmt args text` is the reference: the text of a format with its
arguments, piece by piece.  `cprint_renders` says that `_cprint` writes that text.
Memory stays as it is while text is printed: strings do not lie in video memory.
-/

import DrewOS.Console.Screen
import DrewOS.Effect.Fuel
import DrewOS.Kernel.Itoa
import Mathlib.Data.Stream.Init

namespace DrewOS
namespace Printing

open ByteMem Effect Console

/-! ### The code -/

/-- What the printing code asks for. -/
inductive Op where
  /-- Read a byte through a pointer. -/
  | fetch (a : Addr)
  /-- `va_arg`: the next argument, one doubleword for each type in use. -/
  | vaArg
  | writeChar (c : Byte) (fg bg : Colour)
  /-- The result of `itoa` or `itoh` is ignored; the buffer is as they leave it. -/
  | ignore (result : Dword) (buf : Buffer)

/-- The type of the answer to an operation. -/
def Op.Answer : Op → Type
  | .fetch _ => Byte
  | .vaArg => Dword
  | _ => Unit

/-- The operations of the printing code. -/
def calls : Interface := ⟨Op, Op.Answer⟩

/-- Printing code with a result in `α`. -/
abbrev Print (α : Type) : Type := Prog calls α

def fetch (a : Addr) : Print Byte := .ask (.fetch a) .ret

def vaArg : Print Dword := .ask .vaArg .ret

def writeChar (c : Byte) (fg bg : Colour) : Print Unit := .ask (.writeChar c fg bg) .ret

def ignore (result : Dword) (buf : Buffer) : Print Unit := .ask (.ignore result buf) .ret

/-- The character `'%'`, and those of the conversions. -/
def percent : Byte := 0x25

def charC : Byte := 0x63

def charS : Byte := 0x73

def charD : Byte := 0x64

def charX : Byte := 0x78

/-- `bufsize`. -/
def bufsize : Word := 32

section Code

variable (fg bg : Colour)

/-- `while ( (var_char = *var_str++) ) write_char(var_char, fg, bg);`, at most `n`
characters. -/
def putString : ℕ → Addr → Print Unit
  | 0, _ => .cut
  | n + 1, s => do
    let c ← fetch s
    if c = 0 then
      return ()
    else
      writeChar c fg bg
      putString n (s + 1)

/-- `for (uint8_t i = 0; buf[i]; i++) write_char(buf[i], fg, bg);`, at most `n`
characters. -/
def putBuffer (buf : Buffer) : ℕ → Byte → Print Unit
  | 0, _ => .cut
  | n + 1, i =>
    if buf i.toNat = 0 then
      return ()
    else do
      writeChar (buf i.toNat) fg bg
      putBuffer buf n (i + 1)

/-- Print what `itoa` or `itoh` has left; its result is ignored. -/
def putNumber (n : ℕ) : Option (Dword × Buffer) → Print Buffer
  | none => .cut
  | some (result, buf) => do
    ignore result buf
    putBuffer fg bg buf n 0
    return buf

/-- The `switch` on the character after `'%'`. -/
def conversion (n : ℕ) (c : Byte) (buf : Buffer) : Print Buffer :=
  if c = percent then do
    writeChar percent fg bg
    return buf
  else if c = charC then do
    let v ← vaArg
    writeChar (v.setWidth 8) fg bg
    return buf
  else if c = charS then do
    let s ← vaArg
    putString fg bg n s
    return buf
  else if c = charD then do
    let v ← vaArg
    putNumber fg bg n (itoa v buf bufsize)
  else if c = charX then do
    let v ← vaArg
    putNumber fg bg n (itoh v buf bufsize)
  else
    return buf

/-- The loop of `_cprint`, at most `n` rounds. -/
def cprintLoop : ℕ → Addr → Buffer → Print Unit
  | 0, _, _ => .cut
  | n + 1, msg, buf => do
    let c ← fetch msg
    if c = 0 then
      return ()
    else if c = percent then
      let d ← fetch (msg + 1)
      let buf ← conversion fg bg n d buf
      cprintLoop n (msg + 2) buf
    else
      writeChar c fg bg
      cprintLoop n (msg + 1) buf

/-- `_cprint(msg, fg, bg, args)`; `buf` is what its buffer holds at the start. -/
def cprint (msg : Addr) (buf : Buffer) (n : ℕ) : Print Unit :=
  if msg = 0 then return () else cprintLoop fg bg n msg buf

end Code

/-! ### The machine -/

/-- Memory, the arguments still to be taken, the characters passed to `write_char`
with their colours, and the results that were ignored with their buffers. -/
structure State where
  mem : Mem
  args : Stream' Dword
  written : List (Byte × Colour × Colour)
  ignored : List (Dword × Buffer)

/-- The machine that prints. -/
def machine : Machine calls State
  | .fetch a, s => (s.mem a, s)
  | .vaArg, s => (s.args.head, { s with args := s.args.tail })
  | .writeChar c fg bg, s => ((), { s with written := s.written ++ [(c, fg, bg)] })
  | .ignore r buf, s => ((), { s with ignored := s.ignored ++ [(r, buf)] })

/-! ### The reference -/

/-- At `a` lies the text `cs` with a `NUL` behind it. -/
def HoldsString (m : Mem) : Addr → List Byte → Prop
  | a, [] => m a = 0
  | a, c :: cs => m a = c ∧ c ≠ 0 ∧ HoldsString m (a + 1) cs

/-- Every `'%'` of the format is followed by one of `% c s d x`. -/
inductive WellFormed : List Byte → Prop where
  | nil : WellFormed []
  | literal {c : Byte} {fmt : List Byte} (hc : c ≠ percent) (h : WellFormed fmt) :
      WellFormed (c :: fmt)
  | conversion {c : Byte} {fmt : List Byte} (hc : c ∈ [percent, charC, charS, charD, charX])
      (h : WellFormed fmt) : WellFormed (percent :: c :: fmt)

/-- The text of one conversion with the arguments it takes. -/
inductive Converts (m : Mem) : Byte → List Dword → List Byte → Prop where
  | percentSign : Converts m percent [] [percent]
  | char (v : Dword) : Converts m charC [v] [v.setWidth 8]
  | string {s : Addr} {cs : List Byte} (h : HoldsString m s cs) : Converts m charS [s] cs
  | decimal (v : Dword) : Converts m charD [v] (numeral 10 v)
  | hex (v : Dword) : Converts m charX [v] (numeral 16 v)

/-- The text of a format with its arguments. -/
inductive Renders (m : Mem) : List Byte → List Dword → List Byte → Prop where
  | nil : Renders m [] [] []
  | literal {c : Byte} {fmt : List Byte} {args : List Dword} {text : List Byte} (hc : c ≠ percent)
      (h : Renders m fmt args text) : Renders m (c :: fmt) args (c :: text)
  | conversion {c : Byte} {fmt : List Byte} {vs args : List Dword} {piece text : List Byte}
      (hc : Converts m c vs piece) (h : Renders m fmt args text) :
      Renders m (percent :: c :: fmt) (vs ++ args) (piece ++ text)

/-- The number of arguments of a format. -/
def argCount : List Byte → ℕ
  | [] => 0
  | [_] => 0
  | c :: d :: fmt =>
    if c = percent then (if d = percent then 0 else 1) + argCount fmt else argCount (d :: fmt)

/-- A string ends with a zero. -/
theorem HoldsString.nul {m : Mem} {a : Addr} {cs : List Byte} (h : HoldsString m a cs) :
    ∃ z, m z = 0 := by
  induction cs generalizing a with
  | nil => exact ⟨a, h⟩
  | cons c cs ih => exact ih h.2.2

/-- An address holds one string. -/
theorem HoldsString.unique {m : Mem} {a : Addr} {cs ds : List Byte} (h : HoldsString m a cs)
    (h' : HoldsString m a ds) : cs = ds := by
  induction cs generalizing a ds with
  | nil =>
    cases ds with
    | nil => rfl
    | cons d ds => exact absurd (h'.1.symm.trans h) h'.2.1
  | cons c cs ih =>
    cases ds with
    | nil => exact absurd (h.1.symm.trans h') h.2.1
    | cons d ds => rw [h.1.symm.trans h'.1, ih h.2.2 h'.2.2]

/-- Addresses wrap, so a `NUL` anywhere ends the text at every address. -/
theorem exists_holdsString {m : Mem} {z : Addr} (hz : m z = 0) (a : Addr) :
    ∃ cs, HoldsString m a cs := by
  induction hk : (z - a).toNat generalizing a with
  | zero =>
    have hza : z = 0 + a := BitVec.sub_eq_iff_eq_add.1 (BitVec.eq_of_toNat_eq hk)
    have ha : z = a := hza.trans (BitVec.zero_add a)
    exact ⟨[], ha ▸ hz⟩
  | succ k ih =>
    by_cases h0 : m a = 0
    · exact ⟨[], h0⟩
    · have hnext : (z - (a + 1)).toNat = k := by
        have hone : (1 : Addr).toNat = 1 := rfl
        rw [← BitVec.sub_sub, BitVec.toNat_sub, hk, hone]
        have := (z - a).isLt
        omega
      obtain ⟨cs, hcs⟩ := ih (a + 1) hnext
      exact ⟨m a :: cs, rfl, h0, hcs⟩

/-- A conversion and its arguments determine the text. -/
theorem Converts.unique {m : Mem} {c : Byte} {vs : List Dword} {piece piece' : List Byte}
    (h : Converts m c vs piece) (h' : Converts m c vs piece') : piece = piece' := by
  cases h with
  | percentSign => cases h'; rfl
  | char v => cases h'; rfl
  | string hs =>
    cases h' with
    | string hs' => exact hs.unique hs'
  | decimal v => cases h'; rfl
  | hex v => cases h'; rfl

/-- Every conversion but `%%` takes one argument. -/
theorem Converts.length_args {m : Mem} {c : Byte} {vs : List Dword} {piece : List Byte}
    (h : Converts m c vs piece) : vs.length = if c = percent then 0 else 1 := by
  cases h <;> rfl

/-- Every conversion with an argument for it has a text. -/
theorem exists_converts {m : Mem} {z : Addr} (hz : m z = 0) {c : Byte}
    (hc : c ∈ [percent, charC, charS, charD, charX]) (args : List Dword)
    (hargs : (if c = percent then 0 else 1) ≤ args.length) :
    ∃ vs rest piece, args = vs ++ rest ∧ Converts m c vs piece := by
  by_cases hp : c = percent
  · subst hp
    exact ⟨[], args, [percent], rfl, .percentSign⟩
  · rw [if_neg hp] at hargs
    obtain ⟨v, rest, rfl⟩ := List.exists_cons_of_length_pos hargs
    obtain ⟨cs, hcs⟩ := exists_holdsString hz v
    simp only [List.mem_cons, hp, false_or, List.not_mem_nil, or_false] at hc
    rcases hc with rfl | rfl | rfl | rfl
    · exact ⟨[v], rest, _, rfl, .char v⟩
    · exact ⟨[v], rest, cs, rfl, .string hcs⟩
    · exact ⟨[v], rest, _, rfl, .decimal v⟩
    · exact ⟨[v], rest, _, rfl, .hex v⟩

/-- A character that is no `%` takes no argument. -/
theorem argCount_literal {c : Byte} (hc : c ≠ percent) (fmt : List Byte) :
    argCount (c :: fmt) = argCount fmt := by
  cases fmt with
  | nil => rfl
  | cons d fmt => rw [argCount, if_neg hc]

/-- A conversion counts as one argument, `%%` as none. -/
theorem argCount_conversion (c : Byte) (fmt : List Byte) :
    argCount (percent :: c :: fmt) = (if c = percent then 0 else 1) + argCount fmt := by
  rw [argCount, if_pos rfl]

/-- **The reference is defined** on every well-formed format with as many arguments
as it takes. -/
theorem exists_renders {m : Mem} {z : Addr} (hz : m z = 0) {fmt : List Byte}
    (hfmt : WellFormed fmt) (args : List Dword) (hargs : args.length = argCount fmt) :
    ∃ text, Renders m fmt args text := by
  induction hfmt generalizing args with
  | nil =>
    rw [List.length_eq_zero_iff.1 hargs]
    exact ⟨[], .nil⟩
  | @literal c fmt hc _ ih =>
    rw [argCount_literal hc] at hargs
    obtain ⟨text, htext⟩ := ih args hargs
    exact ⟨c :: text, .literal hc htext⟩
  | @conversion c fmt hc _ ih =>
    rw [argCount_conversion] at hargs
    obtain ⟨vs, rest, piece, rfl, hpiece⟩ := exists_converts hz hc args (by omega)
    have hvs := hpiece.length_args
    rw [List.length_append, hvs] at hargs
    obtain ⟨text, htext⟩ := ih rest (by omega)
    exact ⟨piece ++ text, .conversion hpiece htext⟩

/-- **The reference is a function** of the format and the arguments. -/
theorem Renders.unique {m : Mem} {fmt : List Byte} {args : List Dword} {text text' : List Byte}
    (h : Renders m fmt args text) (h' : Renders m fmt args text') : text = text' := by
  induction h generalizing text' with
  | nil =>
    cases h'
    rfl
  | literal hc _ ih =>
    cases h' with
    | literal _ h' => rw [ih h']
    | conversion => exact absurd rfl hc
  | @conversion c fmt vs args piece text hc _ ih =>
    generalize hall : vs ++ args = all at h'
    cases h' with
    | literal hc' _ => exact absurd rfl hc'
    | conversion hc' h' =>
      obtain ⟨rfl, rfl⟩ := List.append_inj hall (hc.length_args.trans hc'.length_args.symm)
      rw [hc.unique hc', ih h']

/-! ### What is in the buffer -/

/-- From offset `i` on the buffer holds the text `cs` with a `NUL` behind it. -/
def BufferHolds (buf : Buffer) : ℕ → List Byte → Prop
  | i, [] => buf i = 0
  | i, c :: cs => buf i = c ∧ c ≠ 0 ∧ BufferHolds buf (i + 1) cs

/-- Text without a zero inside can be read back from the buffer. -/
theorem bufferHolds_putBytes {cs : List Byte} (hcs : ∀ c ∈ cs, c ≠ 0) (i : ℕ) (buf : Buffer) :
    BufferHolds (putBytes i (cs ++ [0]) buf) i cs := by
  induction cs generalizing i buf with
  | nil => exact Function.update_self ..
  | cons c cs ih =>
    have htail : ∀ d ∈ cs, d ≠ 0 := fun d hd => hcs d (List.mem_cons_of_mem _ hd)
    refine ⟨?_, hcs c (List.mem_cons_self ..), ih htail _ _⟩
    rw [List.cons_append, putBytes, putBytes_apply, if_neg (by omega), Function.update_self]

/-- The call succeeded, and left a text and its `NUL` in the buffer of `bufsize`
bytes. -/
def Filled (x : Dword × Buffer) : Prop :=
  x.1 = 0 ∧ ∃ text, text.length < bufsize.toNat ∧ BufferHolds x.2 0 text

/-! ### Runs -/

section Runs

variable (fg bg : Colour)

/-- The state after the text `text` is written; the arguments `rest` are left. -/
def State.after (w : State) (text : List Byte) (rest : Stream' Dword)
    (new : List (Dword × Buffer)) : State where
  mem := w.mem
  args := rest
  written := w.written ++ text.map fun c => (c, fg, bg)
  ignored := w.ignored ++ new

theorem State.after_nil (w : State) : w.after fg bg [] w.args [] = w := by
  simp [State.after]

/-- One stretch of output behind the other. -/
theorem State.after_after (w : State) (text text' : List Byte) (rest rest' : Stream' Dword)
    (new new' : List (Dword × Buffer)) :
    (w.after fg bg text rest new).after fg bg text' rest' new' =
      w.after fg bg (text ++ text') rest' (new ++ new') := by
  simp [State.after, List.append_assoc]

theorem run_fetch (a : Addr) (w : State) : (fetch a).run machine w = (some (w.mem a), w) := rfl

/-- `va_arg` takes the next argument. -/
theorem run_vaArg (w : State) :
    vaArg.run machine w = (some w.args.head, w.after fg bg [] w.args.tail []) := by
  rw [State.after, List.append_nil, List.map_nil, List.append_nil]
  rfl

/-- `write_char` writes its character. -/
theorem run_writeChar (c : Byte) (w : State) :
    (writeChar c fg bg).run machine w = (some (), w.after fg bg [c] w.args []) := by
  rw [State.after, List.append_nil]
  rfl

theorem run_ignore (r : Dword) (buf : Buffer) (w : State) :
    (ignore r buf).run machine w = (some (), w.after fg bg [] w.args [(r, buf)]) := by
  rw [State.after, List.map_nil, List.append_nil]
  rfl

/-- A string is written up to its `NUL`. -/
theorem run_putString {cs : List Byte} {s : Addr} {w : State} (h : HoldsString w.mem s cs) {n : ℕ}
    (hn : cs.length < n) :
    (putString fg bg n s).run machine w = (some (), w.after fg bg cs w.args []) := by
  obtain ⟨n, rfl⟩ : ∃ k, n = k + 1 := ⟨n - 1, by omega⟩
  induction cs generalizing s w n with
  | nil =>
    have hnul : w.mem s = 0 := h
    rw [putString, Prog.run_bind_of_some machine (run_fetch s w), if_pos hnul, State.after_nil]
    rfl
  | cons c cs ih =>
    obtain ⟨hc, hne, hcs⟩ := h
    rw [List.length_cons] at hn
    obtain ⟨n, rfl⟩ : ∃ k, n = k + 1 := ⟨n - 1, by omega⟩
    have hrest := ih (w := w.after fg bg [c] w.args []) hcs n (by omega)
    rw [putString, Prog.run_bind_of_some machine (run_fetch s w), hc, if_neg hne,
      Prog.run_bind_of_some machine (run_writeChar fg bg c w), hrest, State.after_after]
    rfl

/-- So is what the buffer holds, as long as the counter of 8 bits does not wrap. -/
theorem run_putBuffer {buf : Buffer} {cs : List Byte} {i : ℕ} (h : BufferHolds buf i cs)
    (hi : i + cs.length < 256) {n : ℕ} (hn : cs.length < n) (w : State) :
    (putBuffer fg bg buf n (BitVec.ofNat 8 i)).run machine w =
      (some (), w.after fg bg cs w.args []) := by
  obtain ⟨n, rfl⟩ : ∃ k, n = k + 1 := ⟨n - 1, by omega⟩
  have htoNat : (BitVec.ofNat 8 i).toNat = i := by
    rw [BitVec.toNat_ofNat]
    omega
  induction cs generalizing i w n with
  | nil =>
    have hnul : buf i = 0 := h
    rw [putBuffer, htoNat, if_pos hnul, State.after_nil]
    rfl
  | cons c cs ih =>
    obtain ⟨hc, hne, hcs⟩ := h
    rw [List.length_cons] at hn hi
    obtain ⟨n, rfl⟩ : ∃ k, n = k + 1 := ⟨n - 1, by omega⟩
    have hnext : BitVec.ofNat 8 i + 1 = BitVec.ofNat 8 (i + 1) := (BitVec.ofNat_add ..).symm
    have htoNat' : (BitVec.ofNat 8 (i + 1)).toNat = i + 1 := by
      rw [BitVec.toNat_ofNat]
      omega
    have hrest := ih hcs (by omega) (w.after fg bg [c] w.args []) n (by omega) htoNat'
    rw [putBuffer, htoNat, hc, if_neg hne, hnext,
      Prog.run_bind_of_some machine (run_writeChar fg bg c w), hrest, State.after_after]
    rfl

/-- A number is formatted into the buffer, and written from there. -/
theorem run_putNumber {base : Byte} (hb : 10 ≤ base.toNat) (hb' : base.toNat ≤ 36) (x : Dword)
    (buf : Buffer) (w : State) :
    ∃ filled, Filled (0, filled) ∧ ∀ n, (numeral base x).length < n →
      (putNumber fg bg n (some (0, putBytes 0 (numeral base x ++ [0]) buf))).run machine w =
        (some filled, w.after fg bg (numeral base x) w.args [(0, filled)]) := by
  have hlt : (numeral base x).length < 32 := length_numeral_lt hb x
  have hholds : BufferHolds (putBytes 0 (numeral base x ++ [0]) buf) 0 (numeral base x) :=
    bufferHolds_putBytes (fun c => ne_zero_of_mem_numeral (by omega) hb') 0 buf
  refine ⟨_, ⟨rfl, numeral base x, hlt, hholds⟩, fun n hn => ?_⟩
  generalize putBytes 0 (numeral base x ++ [0]) buf = filled at hholds ⊢
  have hbuffer : (putBuffer fg bg filled n 0).run machine _ = _ :=
    run_putBuffer fg bg hholds (by omega) hn (w.after fg bg [] w.args [(0, filled)])
  rw [putNumber, Prog.run_bind_of_some machine (run_ignore fg bg 0 filled w),
    Prog.run_bind_of_some machine hbuffer, State.after_after]
  rfl

/-- **One conversion** writes its text and takes its arguments. -/
theorem run_conversion {c : Byte} {vs : List Dword} {piece : List Byte} {w : State}
    (h : Converts w.mem c vs piece) {rest : Stream' Dword} (hargs : w.args = vs ++ₛ rest)
    (buf : Buffer) :
    ∃ new buf', (∀ x ∈ new, Filled x) ∧ ∀ n, piece.length < n →
      (conversion fg bg n c buf).run machine w = (some buf', w.after fg bg piece rest new) := by
  -- the next argument, where there is one
  have htake : ∀ v, w.args = [v] ++ₛ rest →
      vaArg.run machine w = (some v, w.after fg bg [] rest []) := by
    intro v hv
    rw [run_vaArg fg bg, hv]
    rfl
  have hnone : ∀ x ∈ ([] : List (Dword × Buffer)), Filled x := fun _ hx =>
    absurd hx List.not_mem_nil
  cases h with
  | percentSign =>
    have hrest : w.args = rest := hargs
    refine ⟨[], buf, hnone, fun n _ => ?_⟩
    rw [conversion, if_pos rfl, Prog.run_bind_of_some machine (run_writeChar fg bg percent w),
      hrest]
    rfl
  | char v =>
    refine ⟨[], buf, hnone, fun n _ => ?_⟩
    rw [conversion, if_neg (by decide), if_pos rfl, Prog.run_bind_of_some machine (htake v hargs),
      Prog.run_bind_of_some machine (run_writeChar fg bg _ _), State.after_after]
    rfl
  | @string s cs hs =>
    refine ⟨[], buf, hnone, fun n hn => ?_⟩
    have hput := run_putString fg bg (w := w.after fg bg [] rest []) hs hn
    rw [conversion, if_neg (by decide), if_neg (by decide), if_pos rfl,
      Prog.run_bind_of_some machine (htake s hargs), Prog.run_bind_of_some machine hput,
      State.after_after]
    rfl
  | decimal v =>
    have hten : 10 ≤ (10 : Byte).toNat := by decide
    obtain ⟨filled, hfilled, hput⟩ := run_putNumber fg bg hten (by decide) v buf
      (w.after fg bg [] rest [])
    refine ⟨[(0, filled)], filled, fun x hx => List.mem_singleton.1 hx ▸ hfilled, fun n hn => ?_⟩
    rw [conversion, if_neg (by decide), if_neg (by decide), if_neg (by decide), if_pos rfl,
      Prog.run_bind_of_some machine (htake v hargs), bufsize, itoa_eq, hput n hn, State.after_after]
    rfl
  | hex v =>
    have hsixteen : 10 ≤ (16 : Byte).toNat := by decide
    obtain ⟨filled, hfilled, hput⟩ := run_putNumber fg bg hsixteen (by decide) v buf
      (w.after fg bg [] rest [])
    refine ⟨[(0, filled)], filled, fun x hx => List.mem_singleton.1 hx ▸ hfilled, fun n hn => ?_⟩
    rw [conversion, if_neg (by decide), if_neg (by decide), if_neg (by decide),
      if_neg (by decide), if_pos rfl, Prog.run_bind_of_some machine (htake v hargs), bufsize,
      itoh_eq, hput n hn, State.after_after]
    rfl

/-- **The loop over the format**, by induction on its rendering. -/
theorem run_cprintLoop {m : Mem} {fmt : List Byte} {args : List Dword} {text : List Byte}
    (h : Renders m fmt args text) {msg : Addr} (hmsg : HoldsString m msg fmt) {w : State}
    (hmem : w.mem = m) {rest : Stream' Dword} (hargs : w.args = args ++ₛ rest) (buf : Buffer) :
    ∃ new, (∀ x ∈ new, Filled x) ∧ ∀ n, fmt.length + text.length < n →
      (cprintLoop fg bg n msg buf).run machine w = (some (), w.after fg bg text rest new) := by
  induction h generalizing msg w buf with
  | nil =>
    have hnul : w.mem msg = 0 := by
      rw [hmem]
      exact hmsg
    have hrest : w.args = rest := hargs
    refine ⟨[], fun _ hx => absurd hx List.not_mem_nil, fun n hn => ?_⟩
    obtain ⟨n, rfl⟩ : ∃ k, n = k + 1 := ⟨n - 1, by omega⟩
    rw [cprintLoop, Prog.run_bind_of_some machine (run_fetch msg w), if_pos hnul, ← hrest,
      State.after_nil]
    rfl
  | @literal c fmt args text hc _ ih =>
    obtain ⟨hhead, hne, htail⟩ := hmsg
    rw [← hmem] at hhead
    obtain ⟨new, hnew, hrun⟩ := ih htail (w := w.after fg bg [c] w.args []) hmem hargs buf
    refine ⟨new, hnew, fun n hn => ?_⟩
    rw [List.length_cons, List.length_cons] at hn
    obtain ⟨n, rfl⟩ : ∃ k, n = k + 1 := ⟨n - 1, by omega⟩
    rw [cprintLoop, Prog.run_bind_of_some machine (run_fetch msg w), hhead, if_neg hne, if_neg hc,
      Prog.run_bind_of_some machine (run_writeChar fg bg c w), hrun n (by omega), State.after_after]
    rfl
  | @conversion c fmt vs args piece text hc _ ih =>
    obtain ⟨hhead, hne, hnext, -, htail⟩ := hmsg
    rw [← hmem] at hhead hnext hc
    have htwo : msg + 1 + 1 = msg + 2 := BitVec.add_assoc ..
    have hsplit : w.args = vs ++ₛ (args ++ₛ rest) := by
      rw [hargs, Stream'.append_append_stream]
    obtain ⟨new, buf', hnew, hconv⟩ := run_conversion fg bg hc hsplit buf
    obtain ⟨new', hnew', hrun⟩ :=
      ih htail (w := w.after fg bg piece (args ++ₛ rest) new) hmem rfl buf'
    refine ⟨new ++ new', fun x hx => (List.mem_append.1 hx).elim (hnew x) (hnew' x), fun n hn => ?_⟩
    rw [List.length_cons, List.length_cons, List.length_append] at hn
    obtain ⟨n, rfl⟩ : ∃ k, n = k + 1 := ⟨n - 1, by omega⟩
    rw [htwo] at hrun
    rw [cprintLoop, Prog.run_bind_of_some machine (run_fetch msg w), hhead, if_neg hne, if_pos rfl,
      Prog.run_bind_of_some machine (run_fetch (msg + 1) w), hnext,
      Prog.run_bind_of_some machine (hconv n (by omega)), hrun n (by omega), State.after_after]

end Runs

/-- **Formatted printing.**  For every well-formed format and as many arguments as it
takes, `_cprint` writes the text of the reference, takes every argument once, and
every number it formats succeeds and is in the buffer with its `NUL`. -/
theorem cprint_renders (fg bg : Colour) {msg : Addr} {fmt : List Byte} {w : State} (hmsg : msg ≠ 0)
    (hfmt : HoldsString w.mem msg fmt) (hwf : WellFormed fmt) {args : List Dword}
    {rest : Stream' Dword} (hargs : w.args = args ++ₛ rest) (hcount : args.length = argCount fmt)
    (buf : Buffer) :
    ∃ text, Renders w.mem fmt args text ∧
      ∃ new, (∀ x ∈ new, Filled x) ∧ ∀ n, fmt.length + text.length < n →
        (cprint fg bg msg buf n).run machine w =
          (some (), ⟨w.mem, rest, w.written ++ text.map fun c => (c, fg, bg),
            w.ignored ++ new⟩) := by
  obtain ⟨z, hz⟩ := hfmt.nul
  obtain ⟨text, htext⟩ := exists_renders hz hwf args hcount
  obtain ⟨new, hnew, hrun⟩ := run_cprintLoop fg bg htext hfmt rfl hargs buf
  refine ⟨text, htext, new, hnew, fun n hn => ?_⟩
  rw [cprint, if_neg hmsg, hrun n hn]
  rfl

/-- The format `"%s%x%%"` at address 1, with `INT32_MIN` and a pointer to its last
character as arguments. -/
theorem cprint_renders_minimum :
    let mem : Mem := fun a => [0, percent, charS, percent, charX, percent, percent][a.toNat]?.getD 0
    let w : State := ⟨mem, [6, 0x80000000] ++ₛ Stream'.const 0, [], []⟩
    ∃ text, Renders mem [percent, charS, percent, charX, percent, percent] [6, 0x80000000] text ∧
      ∃ new, (∀ x ∈ new, Filled x) ∧ ∀ n, 6 + text.length < n →
        (cprint .gray .black 1 (fun _ => 0) n).run machine w =
          (some (), ⟨mem, Stream'.const 0, [] ++ text.map fun c => (c, .gray, .black),
            [] ++ new⟩) := by
  intro mem w
  have hfmt : HoldsString mem 1 [percent, charS, percent, charX, percent, percent] := by
    refine ⟨rfl, ?_, rfl, ?_, rfl, ?_, rfl, ?_, rfl, ?_, rfl, ?_, rfl⟩ <;> decide
  have hwf : WellFormed [percent, charS, percent, charX, percent, percent] :=
    .conversion (by decide) (.conversion (by decide) (.conversion (by decide) .nil))
  exact cprint_renders .gray .black (w := w) (by decide) hfmt hwf rfl rfl _

end Printing
end DrewOS
