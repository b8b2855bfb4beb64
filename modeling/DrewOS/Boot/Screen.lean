/-
# What the boot sequence shows

The console of `main`, over any devices and any memory.  What `main` and the stub of its
interrupt have printed up to a point is a text (`printedBy`), and the screen is the window
on its clamped document (`Console.typedClamped`), in which the newlines that lead more
than one row below the window are lost: no message is lost by the wrap of the row counter,
and no character that has been shown is overwritten in place.  This needs that `main`
prints no long run of newlines, whatever the devices answer: every message but those of
the greeting is a line (`isLine`).  Where no visible blank row is lost the document is the
plain one, as it was typed (`main_screen`).

The hardware cursor is hidden by the third operation, and only the firmware's table can
show it again.
-/

import DrewOS.Boot.Confined
import DrewOS.Boot.Cursor
import DrewOS.Console.Forward
import DrewOS.Console.Newlines
import DrewOS.Window.Blocks

namespace DrewOS

open ByteMem Effect Console

/-- The characters that an event sends to the console. -/
def Event.inputs : Event → List Input
  | .print m => m.inputs
  | _ => []

/-- What has been printed. -/
def printedBy (log : List Event) : List Input := log.flatMap Event.inputs

/-- What an event does to the console. -/
def Event.showOn (s : Screen) : Event → Screen
  | .clrscr => Console.clrscr s
  | .print m => typeOn m.inputs s
  | _ => s

/-- The console after the events. -/
def shownBy (log : List Event) (s : Screen) : Screen := log.foldl Event.showOn s

/-- What two stretches print, one behind the other. -/
theorem printedBy_append (l l' : List Event) :
    printedBy (l ++ l') = printedBy l ++ printedBy l' :=
  List.flatMap_append

theorem printedBy_cons (e : Event) (log : List Event) :
    printedBy (e :: log) = e.inputs ++ printedBy log :=
  List.flatMap_cons

/-- Without `clrscr`, the text is typed. -/
theorem shownBy_eq_typeOn {log : List Event} (h : Event.clrscr ∉ log) (s : Screen) :
    shownBy log s = typeOn (printedBy log) s := by
  induction log generalizing s with
  | nil => rfl
  | cons e log ih =>
    rw [List.mem_cons, not_or] at h
    have hone : e.showOn s = typeOn e.inputs s := by
      cases e with
      | clrscr => exact absurd rfl h.1
      | _ => rfl
    show shownBy log (e.showOn s) = _
    rw [ih h.2, hone, printedBy_cons, typeOn, typeOn, typeOn, List.foldl_append]

/-! ### Newlines -/

/-- `'\n'`. -/
def isNewline (i : Input) : Bool := decide (i.char = newline)

/-- What the rest of the boot prints. -/
theorem blocks_of_later {ram : Mem} {l : List Event} (h : ∀ e ∈ l, Later ram e) :
    Window.Blocks (fun i : Input => Printable i.char) isNewline 2 (l.map Event.inputs) := by
  have hline : ∀ m : Message, isLine m.text m.args = true → ∃ text, MessageLine text ∧
      m.inputs = text.map fun c => ⟨c, m.fg, m.bg⟩ := fun m hm => by
    obtain ⟨text, htext, hline⟩ := Message.line_of_isLine hm
    exact ⟨text, hline, by rw [Message.inputs, htext, Option.getD_some]⟩
  refine ⟨fun blk hblk hne => ?_, fun blk hblk => ?_⟩ <;>
    obtain ⟨e, he, rfl⟩ := List.mem_map.1 hblk
  · cases e with
    | print m =>
      obtain ⟨text, ⟨⟨c, hc, hshown⟩, -, -⟩, hinputs⟩ := hline m (h _ he)
      refine ⟨⟨c, m.fg, m.bg⟩, ?_, hshown⟩
      show _ ∈ m.inputs
      rw [hinputs]
      exact List.mem_map_of_mem hc
    | _ => exact absurd rfl hne
  · cases e with
    | print m =>
      obtain ⟨text, ⟨-, -, hcount⟩, hinputs⟩ := hline m (h _ he)
      show m.inputs.countP isNewline ≤ 2
      rw [hinputs, List.countP_map]
      exact hcount
    | _ => exact Nat.zero_le 2

/-- The prints behind the greeting have no carriage return. -/
theorem not_return_of_later {ram : Mem} {l : List Event} (h : ∀ e ∈ l, Later ram e) :
    ∀ i ∈ printedBy l, i.char ≠ carriageReturn := by
  intro i hi
  obtain ⟨e, he, hi⟩ := List.mem_flatMap.1 hi
  cases e with
  | print m =>
    obtain ⟨text, htext, hline⟩ := Message.line_of_isLine (h _ he)
    have hi' : i ∈ m.inputs := hi
    rw [Message.inputs, htext, Option.getD_some] at hi'
    obtain ⟨c, hc, rfl⟩ := List.mem_map.1 hi'
    exact fun hreturn => hline.returns (hreturn ▸ hc)
  | _ => exact absurd hi List.not_mem_nil

/-- The greeting has five newlines and no `'\r'`. -/
theorem countP_greeting : (printedBy greetLog).countP isNewline = 5 := by
  decide

/-- The greeting has no carriage return. -/
theorem not_return_greeting : ∀ i ∈ printedBy greetLog, i.char ≠ carriageReturn := by
  decide +kernel

/-- **The newlines of the boot.**  At no point are there more than nine in a row. -/
theorem Contained.shortRuns {ε : Type} {L : Layout} {table : Idt} {ram : Mem} {w : World ε}
    (h : Contained L table ram w) : ShortRuns 9 (printedBy w.log) := by
  intro seg hseg hmark
  have hgreeting : ∀ l, l <+: printedBy greetLog → l.countP isNewline ≤ 5 := fun l hl =>
    hl.sublist.countP_le.trans countP_greeting.le
  rcases h.printed with ⟨l, hl⟩ | ⟨l, hl, hlater⟩
  · have hpre := hgreeting (printedBy w.log) ⟨printedBy l, by rw [← printedBy_append, hl]⟩
    exact (hseg.sublist.countP_le.trans hpre).trans (by omega)
  · rw [hl, printedBy_append, printedBy, printedBy, List.flatMap_def (l := l)] at hseg
    exact (blocks_of_later hlater).countP_infix_append (hgreeting _ List.prefix_rfl) hseg hmark

/-- Nothing that `main` prints has a carriage return. -/
theorem Contained.not_return {ε : Type} {L : Layout} {table : Idt} {ram : Mem} {w : World ε}
    (h : Contained L table ram w) : ∀ i ∈ printedBy w.log, i.char ≠ carriageReturn := by
  intro i hi
  rcases h.printed with ⟨l, hl⟩ | ⟨l, hl, hlater⟩
  · refine not_return_greeting i ?_
    rw [← hl, printedBy_append]
    exact List.mem_append_left _ hi
  · rw [hl, printedBy_append] at hi
    exact (List.mem_append.1 hi).elim (not_return_greeting i) (not_return_of_later hlater i)

/-! ### The screen -/

/-- Output whose newlines never lead back moves forward. -/
theorem stored_of_onward {cs : List Input} (hcs : ∀ i ∈ cs, i.char ≠ carriageReturn)
    {s : Screen} (h : Onward cs s) : (traced cs s).stored.Pairwise (· < ·) := by
  induction cs using List.reverseRecOn with
  | nil => exact List.Pairwise.nil
  | append_singleton cs c ih =>
    have hinit : ∀ i ∈ cs, i.char ≠ carriageReturn := fun i hi =>
      hcs i (List.mem_append_left _ hi)
    obtain ⟨honward, hlast⟩ := (onward_concat_iff cs c s).1 h
    have hsorted := ih hinit honward
    rw [traced_concat]
    by_cases hc : Printable c.char
    · rw [Traced.write_stored hc, List.pairwise_append]
      refine ⟨hsorted, List.pairwise_singleton _ _, fun q hq r hr => ?_⟩
      rw [List.mem_singleton.1 hr]
      exact (stored_lt_next_iff hinit s hsorted).2 (hlast hc) q hq
    · rw [Traced.write, if_neg hc]
      exact hsorted

/-- `main` clears the screen before anything else, and never again. -/
theorem Contained.cleared {ε : Type} {L : Layout} {table : Idt} {ram : Mem} {w : World ε}
    (h : Contained L table ram w) (hne : w.log ≠ []) (s : Screen) :
    shownBy w.log s = typeOn (printedBy w.log) (clrscr s) := by
  have hrest : ∀ {l : List Event}, l <+: greetLog.tail → Event.clrscr ∉ l := fun hl hmem =>
    absurd (hl.subset hmem) (by decide)
  have hfirst : ∀ l : List Event, Event.clrscr ∉ l →
      shownBy (.clrscr :: l) s = typeOn (printedBy (.clrscr :: l)) (clrscr s) :=
    fun l hl => shownBy_eq_typeOn hl (clrscr s)
  rcases h.printed with hl | ⟨l, hl, hlater⟩
  · rcases List.prefix_cons_iff.1 hl with hnil | ⟨l, hl, hprefix⟩
    · exact absurd hnil hne
    · rw [hl]
      exact hfirst l (hrest hprefix)
  · rw [hl]
    refine hfirst (greetLog.tail ++ l) fun hmem => ?_
    rcases List.mem_append.1 hmem with hmem | hmem
    · exact hrest List.prefix_rfl hmem
    · exact hlater _ hmem

/-- The first operation of `main` is `clrscr()`. -/
theorem sat_cleared {ε : Type} (b : Bus ε) (trap : Kern Unit) (L : Layout) (n : ℕ) (w : World ε) :
    Prog.Sat (trapping b trap) (fun t => t.log ≠ []) (fun _ t => t.log ≠ []) (main L n) w := by
  have hgrown : ∀ t : World ε, (w.say .clrscr).log <+: t.log → t.log ≠ [] := fun t ht hnil =>
    absurd (hnil ▸ ht.subset (List.mem_append_right _ List.mem_cons_self)) List.not_mem_nil
  refine ⟨hgrown _ List.prefix_rfl, ?_⟩
  exact (sat_grows_trapping b trap _ _).mono hgrown fun _ => hgrown

/-- **The console of the boot.**  At every point of the run of `main`, from any screen:
the screen shows the clamped document of what has been printed, which is the plain one
exactly where no visible blank row has been lost; and the characters have been stored at
increasing positions, so none that is shown has been overwritten. -/
theorem main_screen {ε : Type} (b : Bus ε) (L : Layout) (n : ℕ) (e : ε) (table : Idt) (ram : Mem)
    {eip : Dword} (hnull : table.NullAt eip) (s : Screen) :
    ∀ t ∈ (main L n).states (trapping b (genericStub eip)) (.boot e table ram),
      Shows (typedClamped (printedBy t.log) .empty) (shownBy t.log s) ∧
      ((∀ r < 25, ∀ c < 80, cell (shownBy t.log s).ram.bytes r c =
        (typed (printedBy t.log) .empty).window r c) ↔ NothingLost (printedBy t.log)) ∧
      (traced (printedBy t.log) s).screen = shownBy t.log s ∧
      (traced (printedBy t.log) s).stored.Pairwise (· < ·) := by
  intro t ht
  have h := contained_main_stub b L n e ram hnull t ht
  have hcleared := h.cleared ((sat_cleared b (genericStub eip) L n _).states t ht) s
  have hlimit : ∀ limit, 9 ≤ limit → ShortRuns limit (printedBy t.log) :=
    fun limit hl seg hseg hmark => (h.shortRuns seg hseg hmark).trans hl
  rw [hcleared]
  have hshows := shows_typed _ s (hlimit 200 (by omega))
  refine ⟨hshows, hshows.typed_iff, traced_screen _ s, ?_⟩
  exact stored_of_onward h.not_return (onward_of_shortRuns (hlimit 231 (by omega)) s)

/-- The first letter of the greeting, from a screen of zeros. -/
theorem main_screen_first :
    ∃ t ∈ (main .sample 0).states (trapping .silent (genericStub 0x2000))
        (.boot () emptyIdt fun _ => 0),
      cell (shownBy t.log (boot fun _ => 0)).ram.bytes 0 0 = (0x4b, 0x0f) := by
  refine ⟨_, List.mem_of_getElem? (i := 3) rfl, ?_⟩
  have h := main_screen .silent .sample 0 () emptyIdt (fun _ => 0) nullAt_emptyIdt
    (boot fun _ => 0) _ (List.mem_of_getElem? (i := 3) rfl)
  exact (h.1.window 0 (by decide) 0 (by decide)).trans (by decide +kernel)

/-- **No print of the boot misses an argument.**  Every message that `main` and the stub of
its interrupt print up to any point is one whose arguments fit: `_cprint`, in any memory that
holds the format and the texts, passes its characters to `write_char` and takes its arguments
and no more. -/
theorem main_fits {ε : Type} (b : Bus ε) (L : Layout) (n : ℕ) (e : ε) (table : Idt) (ram : Mem)
    {eip : Dword} (hnull : table.NullAt eip) :
    ∀ t ∈ (main L n).states (trapping b (genericStub eip)) (.boot e table ram),
      ∀ m, .print m ∈ t.log →
      ∀ (msg : Addr) (w : Printing.State) (vs : List Dword) (rest : Stream' Dword), msg ≠ 0 →
        Printing.HoldsString w.mem msg (ascii m.text) →
        List.Forall₂ (Printing.Passed w.mem) m.args vs → w.args = vs ++ₛ rest → ∀ buf,
          ∃ new k, ∀ n, k < n → (Printing.call m msg buf n).run Printing.machine w =
            (some (), ⟨w.mem, rest, w.written ++ m.inputs.map fun i => (i.char, i.fg, i.bg),
              w.ignored ++ new⟩) := by
  intro t ht m hm msg w vs rest hmsg hfmt hvs hargs buf
  have h := contained_main_stub b L n e ram hnull t ht
  obtain ⟨text, htext⟩ := Option.isSome_iff_exists.1 (h.allowed _ hm)
  obtain ⟨new, k, hrun⟩ := Printing.run_call htext hmsg hfmt hvs hargs buf
  refine ⟨new, k, fun n hn => ?_⟩
  rw [hrun n hn, Message.inputs, htext, Option.getD_some, List.map_map]
  rfl

/-- The first bar of colour, printed from address 1. -/
theorem main_fits_bar :
    let w : Printing.State :=
      ⟨fun a => [0, space, space, space, space, space][a.toNat]?.getD 0, .const 0, [], []⟩
    ∃ new k, ∀ n, k < n →
      (Printing.call ⟨"     ", .black, .black, [], false⟩ 1 (fun _ => 0) n).run Printing.machine w =
        (some (), ⟨w.mem, .const 0, [] ++ List.replicate 5 (space, .black, .black),
          [] ++ new⟩) := by
  intro w
  have hfmt : Printing.HoldsString w.mem 1 (ascii "     ") := by
    refine ⟨rfl, ?_, rfl, ?_, rfl, ?_, rfl, ?_, rfl, ?_, rfl⟩ <;> decide
  exact main_fits .silent .sample 0 () emptyIdt (fun _ => 0) nullAt_emptyIdt _
    (List.mem_of_getElem? (i := 6) rfl) ⟨"     ", .black, .black, [], false⟩
    (List.mem_of_getElem? (i := 6) rfl) 1 w [] (.const 0) (by decide) hfmt .nil rfl _

/-! ### The cursor -/

namespace Crtc

variable {ρ : Type}

/-- The register that is selected, and the registers. -/
def State.regs (s : State ρ) : Byte × (Byte → Byte) := (s.index, s.reg)

/-- What an event does to them. -/
def select (r : Byte × (Byte → Byte)) : Event → Byte × (Byte → Byte)
  | .outb port d =>
    if port = REG_CTRL then (d, r.2)
    else if port = REG_DATA then (r.1, Function.update r.2 r.1 d)
    else r
  | _ => r

/-- **The log tells what is in the registers.** -/
theorem regs_of_mem_states (rest : Bus ρ) {α : Type} (p : Kern α) (w : World (State ρ)) :
    ∀ t ∈ p.states (machine (bus rest)) w,
      ∃ l, t.log = w.log ++ l ∧ t.bus.regs = l.foldl select w.bus.regs := by
  refine (Prog.sat_of_always (R := fun s t : World (State ρ) =>
    ∃ l, t.log = s.log ++ l ∧ t.bus.regs = l.foldl select s.bus.regs) (fun s => ?_) ?_ ?_
    (Prog.always_true p) w).states
  · exact ⟨[], (List.append_nil _).symm, rfl⟩
  · rintro s t u ⟨l, hl, hregs⟩ ⟨l', hl', hregs'⟩
    refine ⟨l ++ l', ?_, ?_⟩
    · rw [hl', hl, List.append_assoc]
    · rw [hregs', hregs, List.foldl_append]
  · intro o s _
    have hsilent : ∀ e : Event, (∀ r, select r e = r) →
        ∃ l, s.log ++ [e] = s.log ++ l ∧ s.bus.regs = l.foldl select s.bus.regs := fun e he =>
      ⟨[e], rfl, (he s.bus.regs).symm⟩
    cases o with
    | readByte port =>
      refine ⟨[.inb port ((bus rest).inb port s.bus).1], rfl, ?_⟩
      show ((bus rest).inb port s.bus).2.regs = s.bus.regs
      unfold bus
      dsimp only
      split_ifs <;> rfl
    | readWord port => exact ⟨[.inw port ((bus rest).inw port s.bus).1], rfl, rfl⟩
    | writeByte port d =>
      refine ⟨[.outb port d], rfl, ?_⟩
      show ((bus rest).outb port d s.bus).regs = select s.bus.regs (.outb port d)
      unfold bus select
      dsimp only
      split_ifs <;> rfl
    | get => exact ⟨[], (List.append_nil _).symm, rfl⟩
    | modify f => exact ⟨[], (List.append_nil _).symm, rfl⟩
    | load a => exact hsilent (.load a) fun _ => rfl
    | print m => exact hsilent (.print m) fun _ => rfl
    | clrscr => exact hsilent .clrscr fun _ => rfl
    | lidt => exact hsilent .lidt fun _ => rfl
    | sti => exact hsilent .sti fun _ => rfl
    | int v => exact hsilent (.int v) fun _ => rfl
    | invoke h => exact hsilent (.invoke h) fun _ => rfl
    | enter f => exact hsilent (.enter f) fun _ => rfl
    | leave f r => exact hsilent (.leave f r) fun _ => rfl

/-- The cursor has been disabled, and at most the firmware's byte has been written over
the register that says so. -/
structure Hidden (mem : Mem) (reg : Byte → Byte) (r : Byte × (Byte → Byte)) : Prop where
  others : ∀ i, i ≠ 0x0a → r.2 i = reg i
  first : r.2 0x0a = 0x20 ∨ enablePort mem = REG_DATA ∧ r.2 0x0a = enableByte mem
  index : enablePort mem = REG_DATA → r.1 = 0x0a

/-- What is done behind the greeting leaves it at that. -/
theorem Hidden.select {mem : Mem} {reg : Byte → Byte} {r : Byte × (Byte → Byte)}
    (h : Hidden mem reg r) {e : Event} (he : Later mem e) : Hidden mem reg (select r e) := by
  cases e with
  | outb port d =>
    show Hidden mem reg (if port = REG_CTRL then _ else if port = REG_DATA then _ else r)
    have hnoCtrl : REG_CTRL ∉ driverPorts := by decide
    have hnoData : REG_DATA ∉ driverPorts := by decide
    by_cases hctrl : port = REG_CTRL
    · rw [if_pos hctrl]
      rcases he with hport | ⟨hport, -⟩
      · exact absurd (hctrl ▸ hport) hnoCtrl
      · refine ⟨h.others, h.first, fun hdata => ?_⟩
        exact absurd (hctrl.symm.trans (hport.trans hdata)) (by decide)
    rw [if_neg hctrl]
    by_cases hdata : port = REG_DATA
    · rw [if_pos hdata]
      rcases he with hport | ⟨hport, rfl⟩
      · exact absurd (hdata ▸ hport) hnoData
      · have henable : enablePort mem = REG_DATA := hport.symm.trans hdata
        rw [h.index henable]
        refine ⟨fun i hi => ?_, .inr ⟨henable, ?_⟩, fun _ => rfl⟩
        · exact (Function.update_of_ne hi ..).trans (h.others i hi)
        · show Function.update r.2 0x0a (enableByte mem) 0x0a = enableByte mem
          exact Function.update_self ..
    · rw [if_neg hdata]
      exact h
  | _ => exact h

/-- Over any events behind the greeting, the cursor stays hidden. -/
theorem Hidden.foldl {mem : Mem} {reg : Byte → Byte} {l : List Event}
    (hl : ∀ e ∈ l, Later mem e ∨ ∃ m, e = .print m) {r : Byte × (Byte → Byte)}
    (h : Hidden mem reg r) : Hidden mem reg (l.foldl Crtc.select r) := by
  induction l generalizing r with
  | nil => exact h
  | cons e l ih =>
    refine ih (fun e' he' => hl e' (List.mem_cons_of_mem _ he')) ?_
    rcases hl e List.mem_cons_self with he | ⟨m, rfl⟩
    · exact h.select he
    · exact h

/-- The first three operations of `main`. -/
def opening : List Event := [.clrscr, .outb REG_CTRL 0x0a, .outb REG_DATA 0x20]

/-- What follows them. -/
theorem later_of_confined {ε : Type} {L : Layout} {table : Idt} {ram : Mem} {w : World ε}
    (h : Contained L table ram w) (hlen : opening.length ≤ w.log.length) :
    ∃ l, w.log = opening ++ l ∧ ∀ e ∈ l, Later ram e ∨ ∃ m, e = .print m := by
  have hall : ∃ l, w.log <+: opening ++ l ∧ ∀ e ∈ l, Later ram e ∨ ∃ m, e = .print m := by
    have hprint : ∀ e ∈ greetings.map Event.print, Later ram e ∨ ∃ m, e = .print m :=
      fun e he => (List.mem_map.1 he).elim fun m hm => .inr ⟨m, hm.2.symm⟩
    rcases h.printed with hl | ⟨l, hl, hlater⟩
    · exact ⟨_, hl, hprint⟩
    · refine ⟨greetings.map .print ++ l, ?_, fun e he => ?_⟩
      · rw [hl, greetLog, List.append_assoc]
        exact List.prefix_rfl
      · exact (List.mem_append.1 he).elim (hprint e) fun he => .inl (hlater e he)
  obtain ⟨l, hl, hlater⟩ := hall
  obtain ⟨l', hl'⟩ := List.prefix_of_prefix_length_le (List.prefix_append opening l) hl hlen
  refine ⟨l', hl'.symm, fun e he => hlater e ?_⟩
  rw [← hl', List.prefix_append_right_inj] at hl
  exact hl.subset he

/-- **The boot hides the cursor.**  From the third operation of `main` on, the cursor
stands where the firmware left it, with its last scan line, and it is hidden; it is
shown again only if the firmware's table names the port `0x3d5` and a byte whose bit 5
is clear for the command of `acpi_enable`. -/
theorem main_cursor (rest : Bus ρ) (L : Layout) (n : ℕ) (s : State ρ) (table : Idt) (ram : Mem) :
    ∀ t ∈ (main L n).states (machine (bus rest)) (.boot s table ram), 3 ≤ t.log.length →
      t.bus.cursor.cell = s.cursor.cell ∧ t.bus.cursor.last = s.cursor.last ∧
      (t.bus.cursor.shown = true →
        enablePort ram = REG_DATA ∧ (enableByte ram).getLsbD 5 = false) := by
  intro t ht hlen
  obtain ⟨l, hl, hlater⟩ := later_of_confined (contained_main (bus rest) L n s table ram t ht) hlen
  obtain ⟨l', hl', hregs⟩ := regs_of_mem_states rest (main L n) (.boot s table ram) t ht
  obtain rfl : l' = opening ++ l := by
    rw [← hl, hl']
    rfl
  have hopened : Hidden ram s.reg (opening.foldl select s.regs) := by
    have hfirst : (opening.foldl select s.regs).2 = Function.update s.reg 0x0a 0x20 := rfl
    refine ⟨fun i hi => ?_, .inl ?_, fun _ => rfl⟩
    · rw [hfirst]
      exact Function.update_of_ne hi ..
    · rw [hfirst]
      exact Function.update_self ..
  have h := hopened.foldl hlater
  rw [← List.foldl_append] at h
  have hreg : t.bus.reg = ((opening ++ l).foldl select s.regs).2 := congrArg Prod.snd hregs
  obtain ⟨hothers, hfirst, -⟩ := h
  rw [← hreg] at hothers hfirst
  refine ⟨?_, ?_, fun hshown => ?_⟩
  · rw [State.cursor, hothers 0x0e (by decide), hothers 0x0f (by decide)]
    rfl
  · rw [State.cursor, hothers 0x0b (by decide)]
    rfl
  · have hclear : (t.bus.reg 0x0a).getLsbD 5 = false := by
      rw [← Bool.not_eq_true']
      exact hshown
    rcases hfirst with hfirst | ⟨henable, hfirst⟩
    · rw [hfirst] at hclear
      exact absurd hclear (by decide)
    · rw [hfirst] at hclear
      exact ⟨henable, hclear⟩

/-- The cursor stays where a firmware left it that shows it on the first cell. -/
theorem main_cursor_hidden :
    ∃ t ∈ (main .sample 0).states (machine (bus .silent))
        (.boot ⟨0, fun _ => 0, ()⟩ emptyIdt fun _ => 0),
      3 ≤ t.log.length ∧ t.bus.cursor.cell = 0 :=
  ⟨_, List.mem_of_getElem? (i := 2) rfl, le_rfl, (main_cursor .silent .sample 0 ⟨0, fun _ => 0, ()⟩
    emptyIdt _ _ (List.mem_of_getElem? (i := 2) rfl) le_rfl).1⟩

end Crtc

end DrewOS
