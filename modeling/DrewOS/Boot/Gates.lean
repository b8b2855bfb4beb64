/-
# Unmasked lines and their gates

While interrupts are enabled, a line that its chip lets through should have a
present gate.  `idt_init` enables interrupts with the gates of the exceptions
alone, and `pic_remap` restores the masks it found: every line that the firmware
left unmasked is then without a gate.  Later, `ps2_kbd_init` unmasks IRQ 1 many
exchanges before it installs the handler, and `acpi_enable` writes a byte of the
firmware's choice to a port of its choice.

Nothing else in the boot sequence touches the masks, the gates or the interrupt
flag, so these three are exactly what can go wrong (`main_gated_iff`).
-/

import DrewOS.Acpi.Frame
import DrewOS.Boot.Main
import DrewOS.Chips.I8259
import DrewOS.Ps2.Frame

namespace DrewOS

open ByteMem Effect I8259

variable {ρ α β : Type} {rest : Bus ρ}

/-- **No unmasked line without a gate** while interrupts are enabled. -/
def Gated (w : World (I8259.State ρ)) : Prop :=
  w.iflag = true → ∀ line : Byte, line.toNat < 16 → w.bus.Unmasked line →
    (w.kernel.idt.gate (picGetVector w.kernel.pic line)).present = true

/-- The port and the byte with which `acpi_enable` asks the firmware to hand over. -/
def smiCommandPort (w : World (I8259.State ρ)) : Word :=
  (w.mem.load32 (w.kernel.acpi.fadt + Acpi.SMI_COMMAND_PORT)).setWidth 16

def enableCommand (w : World (I8259.State ρ)) : Byte :=
  w.mem (w.kernel.acpi.fadt + Acpi.ACPI_ENABLE)

/-- What must not be asked for once interrupts are enabled: to write a mask or ICW1
through `acpi_enable`, and to start the keyboard driver. -/
def Guarded : Op → World (I8259.State ρ) → Prop
  | .enter .acpiEnable, w => Harmless (smiCommandPort w) (enableCommand w)
  | .enter (.kbdInit _), _ => False
  | _, _ => True

/-! ### With every line masked -/

/-- Interrupts are enabled, every line is masked and no gate from 32 on is present. -/
structure Shut (w : World (I8259.State ρ)) : Prop where
  iflag : w.iflag = true
  closed : w.bus.Closed
  pic : w.kernel.pic = ⟨0x20, 0x28⟩
  gates : ∀ v : Byte, 32 ≤ v.toNat → (w.kernel.idt.gate v).present = false

/-- And the keyboard driver has not been started. -/
structure Sealed (w : World (I8259.State ρ)) : Prop extends Shut w where
  kbd : w.kernel.kbd.vector = 0

/-- Where every line is masked, none is without a gate. -/
theorem Shut.gated {w : World (I8259.State ρ)} (h : Shut w) : Gated w :=
  fun _ line _ hu => absurd hu (h.closed.not_unmasked line)

/-- The vectors of the 16 lines are beyond the exceptions. -/
theorem picGetVector_ge {line : Byte} (h : line.toNat < 16) :
    32 ≤ (picGetVector ⟨0x20, 0x28⟩ line).toNat := by
  unfold picGetVector
  split_ifs with h8
  · show 32 ≤ (0x20 + line).toNat
    bv_omega
  · show 32 ≤ (0x28 + (line - 8)).toNat
    bv_omega

/-- **Without gates every line must be masked.** -/
theorem not_gated {w : World (I8259.State ρ)} (hif : w.iflag = true)
    (hpic : w.kernel.pic = ⟨0x20, 0x28⟩)
    (hgates : ∀ v : Byte, 32 ≤ v.toNat → (w.kernel.idt.gate v).present = false)
    (hmask : ¬ (w.bus.master.imr = 0xff ∧ w.bus.slave.imr = 0xff)) : ¬ Gated w := by
  intro h
  refine hmask (masks_eq_of_masked fun line hline hu => ?_)
  have hpresent := h hif line hline hu
  rw [hpic, hgates _ (picGetVector_ge hline)] at hpresent
  exact absurd hpresent Bool.false_ne_true

/-- **A harmful write to the chips unmasks a line.** -/
theorem Shut.not_gated {w : World (I8259.State ρ)} (h : Shut w) {port : Word} {d : Byte}
    (hh : ¬ Harmless port d) : ¬ Gated (w.afterOutb (I8259.bus rest) port d) :=
  DrewOS.not_gated h.iflag h.pic h.gates ((h.closed.outb rest _ _).2 hh)

/-! ### Code that leaves masks, gates and the interrupt flag alone -/

/-- Events that neither enable interrupts nor are excluded by `Guarded`. -/
def Dark : Event → Prop
  | .sti => False
  | .enter .acpiEnable => False
  | .enter (.kbdInit _) => False
  | _ => True

/-- And that leave the chips alone. -/
structure Aside (e : Event) : Prop where
  dark : Dark e
  port : ∀ port d, e = .outb port d → port ∉ I8259.ports

/-- An operation in the dark is guarded. -/
theorem guarded_of_dark {F : Kernel → Kernel → Prop} {o : Op} (h : o.Within Dark F)
    (w : World (I8259.State ρ)) : Guarded o w := by
  cases o with
  | enter f =>
    cases f with
    | acpiEnable => exact absurd h id
    | kbdInit port => exact absurd h id
    | _ => trivial
  | _ => trivial

/-- Assignments beside the matter. -/
def SameGates (k k' : Kernel) : Prop := k'.pic = k.pic ∧ k'.idt = k.idt ∧ k'.kbd = k.kbd

/-- From `s` to `t`, masks, gates and the interrupt flag are as they were. -/
structure Undisturbed (s t : World (I8259.State ρ)) : Prop where
  iflag : t.iflag = s.iflag
  master : t.bus.master = s.bus.master
  slave : t.bus.slave = s.bus.slave
  kernel : SameGates s.kernel t.kernel

theorem Undisturbed.refl (s : World (I8259.State ρ)) : Undisturbed s s :=
  ⟨rfl, rfl, rfl, rfl, rfl, rfl⟩

theorem Undisturbed.trans (s t u : World (I8259.State ρ)) (h : Undisturbed s t)
    (h' : Undisturbed t u) : Undisturbed s u := by
  obtain ⟨hpic, hidt, hkbd⟩ := h.kernel
  obtain ⟨hpic', hidt', hkbd'⟩ := h'.kernel
  exact ⟨h'.iflag.trans h.iflag, h'.master.trans h.master, h'.slave.trans h.slave,
    hpic'.trans hpic, hidt'.trans hidt, hkbd'.trans hkbd⟩

/-- What is sealed stays so while nothing is disturbed. -/
theorem Sealed.undisturbed {s t : World (I8259.State ρ)} (h : Sealed s) (ht : Undisturbed s t) :
    Sealed t := by
  obtain ⟨hpic, hidt, hkbd⟩ := ht.kernel
  refine ⟨⟨ht.iflag.trans h.iflag, ⟨?_, ?_⟩, hpic.trans h.pic, ?_⟩, ?_⟩
  · rw [ht.master]
    exact h.closed.master
  · rw [ht.slave]
    exact h.closed.slave
  · rw [hidt]
    exact h.gates
  · rw [hkbd]
    exact h.kbd

/-- One operation. -/
theorem undisturbed_step (o : Op) (s : World (I8259.State ρ)) (h : o.Within Aside SameGates) :
    Undisturbed s (machine (I8259.bus rest) o s).2 := by
  cases o with
  | readByte port =>
    obtain ⟨hm, hs⟩ := inb_chips rest port s.bus
    exact ⟨rfl, hm, hs, rfl, rfl, rfl⟩
  | writeByte port d =>
    have hbus := outb_of_not_mem rest (h.port port d rfl) d s.bus
    refine ⟨rfl, ?_, ?_, rfl, rfl, rfl⟩
    · show ((I8259.bus rest).outb port d s.bus).master = s.bus.master
      rw [hbus]
    · show ((I8259.bus rest).outb port d s.bus).slave = s.bus.slave
      rw [hbus]
  | modify f => exact ⟨rfl, rfl, rfl, h s.kernel⟩
  | sti => exact absurd h.dark id
  | _ => exact ⟨rfl, rfl, rfl, rfl, rfl, rfl⟩

/-- Such code keeps the lines sealed. -/
theorem exact_aside {p : Kern α} (h : Stays Aside SameGates p) {s : World (I8259.State ρ)}
    (hs : Sealed s) :
    Prog.Exact (machine (I8259.bus rest)) Guarded Gated (fun _ t => Sealed t) p s := by
  refine (Prog.exact_of_always Undisturbed.refl Undisturbed.trans undisturbed_step h
    (fun o t ho _ => ?_) fun _ ht => (hs.undisturbed ht).gated).post fun _ _ ht => hs.undisturbed ht
  exact guarded_of_dark (ho.mono (fun _ he => he.dark) fun _ _ => id) t

/-! ### Until interrupts are enabled -/

/-- Operations in the dark leave the interrupt flag. -/
theorem iflag_step (o : Op) (s : World (I8259.State ρ)) (h : o.Within Dark fun _ _ => True) :
    (machine (I8259.bus rest) o s).2.iflag = s.iflag := by
  cases o with
  | sti => exact absurd h id
  | _ => rfl

/-- Nothing is said of the lines while interrupts are off. -/
theorem exact_dark {p : Kern α} (h : Stays Dark (fun _ _ => True) p)
    {s : World (I8259.State ρ)} (hs : s.iflag = false) {Q : α → World (I8259.State ρ) → Prop}
    (hQ : ∀ a t, p.run (machine (I8259.bus rest)) s = (some a, t) → Q a t) :
    Prog.Exact (machine (I8259.bus rest)) Guarded Gated Q p s := by
  refine (Prog.exact_of_always (R := fun s t => t.iflag = s.iflag) (fun _ => rfl)
    (fun s t u (h : t.iflag = s.iflag) (h' : u.iflag = t.iflag) => h'.trans h) iflag_step h
    (fun _ t ho _ => guarded_of_dark ho t) fun t ht hif => ?_).of_run fun a t hr _ => hQ a t hr
  rw [ht, hs] at hif
  exact absurd hif Bool.false_ne_true

theorem stays_printColours {E : Event → Prop} {F : Kernel → Kernel → Prop}
    (h : ∀ m, E (.print m)) (bgs : List Console.Colour) : Stays E F (printColours bgs) := by
  induction bgs with
  | nil => exact stays_pure _
  | cons bg bgs ih => exact (stays_printMessage (h _)).bind fun _ => ih

/-- The greeting stays in the dark. -/
theorem stays_mainGreet : Stays Dark (fun _ _ => True) mainGreet :=
  Stays.bind (p := clearScreen) ⟨trivial, fun _ => trivial⟩ fun _ =>
    ((stays_writeByte trivial).bind fun _ => stays_writeByte trivial).bind fun _ =>
    (stays_printMessage trivial).bind fun _ => (stays_printMessage trivial).bind fun _ =>
    (stays_printMessage trivial).bind fun _ =>
    (stays_printColours (fun _ => trivial) _).bind fun _ => stays_printMessage trivial

/-- The greeting returns and disturbs nothing. -/
theorem run_mainGreet (rest : Bus ρ) (w : World (I8259.State ρ)) :
    ∃ t, mainGreet.run (machine (I8259.bus rest)) w = (some (), t) ∧ Undisturbed w t :=
  ⟨_, rfl, rfl, rfl, rfl, rfl, rfl, rfl⟩

/-- `pic_init` stays in the dark. -/
theorem stays_picInit : Stays Dark (fun _ _ => True) picInit := by
  have hwrite : ∀ port d, Stays Dark (fun _ _ => True) (writeByte port d) :=
    fun _ _ => stays_writeByte trivial
  unfold picInit picRemap ioWait
  refine (stays_modifyKernel fun _ => trivial).bind fun _ => ?_
  refine (stays_readByte fun _ => trivial).bind fun _ => ?_
  refine (stays_readByte fun _ => trivial).bind fun _ => ?_
  repeat refine (hwrite _ _).bind fun _ => ?_
  exact stays_ret _

/-- The state in which `idt_init` leaves the machine. -/
def afterIdtInit (L : Layout) (w : World (I8259.State ρ)) : World (I8259.State ρ) :=
  { ({ w with kernel := { w.kernel with idt := idtInitGates L w.kernel.idt } }.say .lidt) with
    iflag := true }.say .sti

/-- `idt_init` fills the vectors of the exceptions only. -/
theorem gate_afterIdtInit (L : Layout) {w : World (I8259.State ρ)}
    (h : ∀ v, (w.kernel.idt.gate v).present = false) (v : Byte) (hv : 32 ≤ v.toNat) :
    ((afterIdtInit L w).kernel.idt.gate v).present = false := by
  show ((idtInitGates L w.kernel.idt).gate v).present = false
  rw [gate_idtInitGates, dif_neg (Nat.not_lt.2 hv)]
  exact h v

/-- The machine when `idt_init` is called: interrupts off, the chips initialised
with the masks that the firmware left, no gate present. -/
structure Ready (mask0 mask1 : Byte) (w : World (I8259.State ρ)) : Prop where
  iflag : w.iflag = false
  master : w.bus.master = ⟨mask0, 0x20, .mask, false, true⟩
  slave : w.bus.slave = ⟨mask1, 0x28, .mask, false, true⟩
  pic : w.kernel.pic = ⟨0x20, 0x28⟩
  gates : ∀ v, (w.kernel.idt.gate v).present = false
  kbd : w.kernel.kbd.vector = 0

/-- With all lines masked, the machine is sealed behind `idt_init`. -/
theorem Ready.sealed {w : World (I8259.State ρ)} (h : Ready 0xff 0xff w) (L : Layout) :
    Sealed (afterIdtInit L w) where
  iflag := rfl
  closed := by
    refine ⟨?_, ?_⟩
    · show w.bus.master.imr = 0xff ∧ w.bus.master.stage = .mask
      rw [h.master]
      exact ⟨rfl, rfl⟩
    · show w.bus.slave.imr = 0xff ∧ w.bus.slave.stage = .mask
      rw [h.slave]
      exact ⟨rfl, rfl⟩
  pic := h.pic
  gates := gate_afterIdtInit L h.gates
  kbd := h.kbd

/-- **A line that the firmware left unmasked has no gate when interrupts come on.** -/
theorem Ready.not_gated {mask0 mask1 : Byte} {w : World (I8259.State ρ)}
    (h : Ready mask0 mask1 w) (hmask : ¬ (mask0 = 0xff ∧ mask1 = 0xff)) (L : Layout) :
    ¬ Gated (afterIdtInit L w) := by
  refine DrewOS.not_gated rfl h.pic (gate_afterIdtInit L h.gates) fun hm => hmask ?_
  have h0 : (afterIdtInit L w).bus.master.imr = mask0 := congrArg Chip.imr h.master
  have h1 : (afterIdtInit L w).bus.slave.imr = mask1 := congrArg Chip.imr h.slave
  exact ⟨h0.symm.trans hm.1, h1.symm.trans hm.2⟩

/-- The chips as the firmware leaves them. -/
def firmware (mask0 mask1 offset0 offset1 : Byte) (r : ρ) : I8259.State ρ :=
  ⟨.firmware mask0 offset0, .firmware mask1 offset1, r⟩

/-- Up to the call of `idt_init`. -/
theorem run_beforeIdt (rest : Bus ρ) (mask0 mask1 offset0 offset1 : Byte) (r : ρ) {table : Idt}
    (ht : ∀ v, (table.gate v).present = false) (mem : Mem) :
    ∃ s t, mainGreet.run (machine (I8259.bus rest))
        (.boot (firmware mask0 mask1 offset0 offset1 r) table mem) = (some (), s) ∧
      s.iflag = false ∧ picInit.run (machine (I8259.bus rest)) s = (some (), t) ∧
      Ready mask0 mask1 t := by
  obtain ⟨s, hs, hsame⟩ := run_mainGreet rest
    (.boot (firmware mask0 mask1 offset0 offset1 r) table mem)
  obtain ⟨t, ht', hmaster, hslave, hkernel, hif⟩ := run_picRemap rest 0x20 0x28 s
  obtain ⟨-, hidt, hkbd⟩ := hsame.kernel
  refine ⟨s, t, hs, hsame.iflag, ht', hif.trans hsame.iflag, ?_, ?_, ?_, ?_, ?_⟩
  · rw [hmaster, hsame.master]
    rfl
  · rw [hslave, hsame.slave]
    rfl
  · rw [hkernel]
  · rw [hkernel]
    intro v
    show (s.kernel.idt.gate v).present = false
    rw [hidt]
    exact ht v
  · rw [hkernel]
    exact congrArg KbdStatics.vector hkbd

/-- **`idt_init` enables interrupts**, and what is then known. -/
theorem exact_idtInit (L : Layout) {w : World (I8259.State ρ)} (h : Ready 0xff 0xff w) :
    Prog.Exact (machine (I8259.bus rest)) Guarded Gated (fun _ t => Sealed t) (idtInit L) w := by
  have hs : Sealed (afterIdtInit L w) := h.sealed L
  have hoff : ∀ {t : World (I8259.State ρ)}, t.iflag = w.iflag → Gated t := fun {t} ht hif => by
    rw [ht, h.iflag] at hif
    exact absurd hif Bool.false_ne_true
  have hall : Prog.Always (fun o => ∀ t : World (I8259.State ρ), Guarded o t) (idtInit L) :=
    ⟨fun _ => trivial, fun _ => ⟨fun _ => trivial, fun _ => ⟨fun _ => trivial, fun _ => trivial⟩⟩⟩
  exact .inl ⟨fun x hx => hall.asked hx x.2, hoff rfl, hoff rfl, hs.gated, hs⟩

/-! ### Handing over to ACPI -/

theorem Sealed.say {w : World (I8259.State ρ)} (h : Sealed w) (e : Event) : Sealed (w.say e) :=
  ⟨⟨h.iflag, h.closed, h.pic, h.gates⟩, h.kbd⟩

theorem scans_aside : Acpi.Scans Aside := ⟨fun _ => ⟨trivial, nofun⟩, fun _ => ⟨trivial, nofun⟩⟩

/-- `acpi_enable` keeps the seal exactly if its command is harmless to the chips. -/
theorem exact_acpiEnable (n : ℕ) {w : World (I8259.State ρ)} (h : Sealed w) :
    Prog.Exact (machine (I8259.bus rest)) Guarded Gated (fun _ t => Sealed t)
      (Acpi.acpiEnable n) w := by
  by_cases hh : Harmless (smiCommandPort w) (enableCommand w)
  · have hw : Sealed (w.say (.enter .acpiEnable)) := h.say _
    refine exact_procedure hh hw.gated (exact_getKernel trivial hw.gated (Prog.Exact.bind ?_))
    refine (exact_aside (Acpi.stays_loadDword scans_aside _) hw).of_run fun port t hrun ht => ?_
    obtain ⟨t', hrun', hmem, -, -⟩ := run_loadDword (I8259.bus rest)
      (w.kernel.acpi.fadt + Acpi.SMI_COMMAND_PORT) (w.say (.enter .acpiEnable))
    obtain ⟨hport, rfl⟩ := Prod.mk.inj (hrun'.symm.trans hrun)
    -- what is written is what the table says, and harmless
    have hwrite : Harmless (port.setWidth 16) (t'.mem (w.kernel.acpi.fadt + Acpi.ACPI_ENABLE)) := by
      rw [hmem, ← Option.some.inj hport]
      exact hh
    have hu : Sealed (World.afterOutb (I8259.bus rest)
        (t'.say (.load (w.kernel.acpi.fadt + Acpi.ACPI_ENABLE))) (port.setWidth 16)
        (t'.mem (w.kernel.acpi.fadt + Acpi.ACPI_ENABLE))) :=
      ⟨⟨ht.iflag, (ht.closed.outb rest _ _).1 hwrite, ht.pic, ht.gates⟩, ht.kbd⟩
    refine Prog.Exact.bind (Prog.exact_ask trivial (ht.say _).gated (Prog.exact_ret ?_))
    refine Prog.Exact.bind (Prog.exact_ask trivial hu.gated (Prog.exact_ret ?_))
    refine (exact_aside (Acpi.stays_enableWait scans_aside (fun _ _ => ⟨trivial, nofun⟩) _ _)
      hu).post fun _ v hv => ⟨trivial, (hv.say _).gated, hv.say _⟩
  · have hwrite := Acpi.states_acpiEnable_write (I8259.bus rest) n w
    have hu : Sealed (Acpi.enableRead w) := (((((h.say _).say _).say _).say _).say _).say _
    refine .inr ⟨⟨(.enter .acpiEnable, w), List.mem_cons_self .., hh⟩, ?_⟩
    exact ⟨_, List.mem_of_getElem? hwrite, hu.toShut.not_gated hh⟩

/-! ### The drivers -/

open Ps2

theorem polls_aside : Polls Aside :=
  ⟨fun _ => ⟨trivial, nofun⟩, fun _ => ⟨trivial, nofun⟩, fun _ _ => ⟨trivial, nofun⟩⟩

theorem calls_aside {f : Fn} (h : f ≠ .acpiEnable ∧ ∀ port, f ≠ .kbdInit port) :
    Calls Aside f := by
  refine ⟨⟨?_, nofun⟩, fun _ => ⟨trivial, nofun⟩⟩
  cases f with
  | acpiEnable => exact absurd rfl h.1
  | kbdInit port => exact absurd rfl (h.2 port)
  | _ => trivial

theorem outb_aside {port : Word} (h : port ∉ I8259.ports) (d : Byte) : Aside (.outb port d) := by
  refine ⟨trivial, fun port' d' he => ?_⟩
  cases he
  exact h

theorem data_aside (d : Byte) : Aside (.outb PORT_DATA d) := outb_aside (by decide) d

theorem sends_aside (command : Byte) : Sends Aside command :=
  ⟨calls_aside ⟨nofun, nofun⟩, outb_aside (by decide) command⟩

theorem talks_aside : Talks Aside where
  toPolls := polls_aside
  write := data_aside
  readData := calls_aside ⟨nofun, nofun⟩
  getConfig := calls_aside ⟨nofun, nofun⟩
  setConfig _ := calls_aside ⟨nofun, nofun⟩

theorem drives_aside (port : Port) : Drives Aside port where
  select _ := sends_aside _
  write := data_aside
  call _ := calls_aside ⟨nofun, nofun⟩

/-- Assigning an identity changes no gate. -/
theorem assignsIds_sameGates (port : Port) : AssignsIds SameGates port := by
  cases port <;> exact fun _ _ => ⟨rfl, rfl, rfl⟩

/-- Assigning a PS/2 static changes no gate. -/
theorem assignsPs2_sameGates : AssignsPs2 SameGates := fun _ _ _ => ⟨rfl, rfl, rfl⟩

/-- Assigning an ACPI static changes no gate. -/
theorem assignsAcpi_sameGates : Acpi.AssignsAcpi SameGates := fun _ _ => ⟨rfl, rfl, rfl⟩

/-- **The keyboard driver unmasks IRQ 1 before it installs its handler.** -/
theorem not_gated_ps2KbdStart (rest : Bus ρ) (L : Layout) (n : ℕ) (port : Port)
    {w : World (I8259.State ρ)} (h : Shut w) :
    ∃ t ∈ (ps2KbdStart L n port).states (machine (I8259.bus rest)) w, ¬ Gated t := by
  -- `u` is where the mask has been read
  obtain ⟨u, -, hu, hwrite⟩ : ∃ u,
      ((ps2KbdStart L n port).states (machine (I8259.bus rest)) w)[3]? = some u ∧ Shut u ∧
      ((ps2KbdStart L n port).states (machine (I8259.bus rest)) w)[4]? =
        some (u.afterOutb (I8259.bus rest) PIC_MASTER_DATA
          (u.bus.master.imr &&& ~~~(1#8 <<< 1))) := by
    refine ⟨_, rfl, ?_⟩
    exact ⟨⟨h.iflag, h.closed, h.pic, h.gates⟩, rfl⟩
  refine ⟨_, List.mem_of_getElem? hwrite, hu.not_gated fun hh => ?_⟩
  have hd := (harmless_data (.inl rfl) _).1 hh
  rw [hu.closed.master.1] at hd
  exact absurd hd (by decide)

/-- Starting the keyboard driver unmasks its line before the gate is there. -/
theorem exact_ps2KbdInit (L : Layout) (n : ℕ) (port : Port) {w : World (I8259.State ρ)}
    (h : Sealed w) {Q : Unit → World (I8259.State ρ) → Prop} :
    Prog.Exact (machine (I8259.bus rest)) Guarded Gated Q (ps2KbdInit L n port) w := by
  refine .inr ⟨⟨(.enter (.kbdInit port), w), List.mem_cons_self .., id⟩, ?_⟩
  have hw : Shut { w.say (.enter (.kbdInit port)) with
      kernel := { w.kernel with kbd := ⟨picGetVector w.kernel.pic PS2_KBD_IRQ, port⟩ } } :=
    ⟨h.iflag, h.closed, h.pic, h.gates⟩
  obtain ⟨t, ht, hgate⟩ := not_gated_ps2KbdStart rest L n port hw
  refine ⟨t, ?_, hgate⟩
  have hbranch : t ∈ ((if w.kernel.kbd.vector ≠ 0 then Prog.ret () else do
      modifyKernel fun k => { k with kbd := ⟨picGetVector k.pic PS2_KBD_IRQ, port⟩ }
      ps2KbdStart L n port) >>= fun _ => leave (.kbdInit port) none).states
      (machine (I8259.bus rest)) (w.say (.enter (.kbdInit port))) := by
    rw [if_neg (not_not.2 h.kbd), Prog.states_bind]
    exact List.mem_append_left _ (List.mem_cons_of_mem _ ht)
  exact List.mem_cons_of_mem _ (List.mem_cons_of_mem _ hbranch)

/-- `ps2_init_device` keeps the seal, unless it starts the keyboard driver. -/
theorem exact_ps2InitDevice (L : Layout) (n : ℕ) (deviceId : Word) (port : Port)
    {w : World (I8259.State ρ)} (h : Sealed w) :
    Prog.Exact (machine (I8259.bus rest)) Guarded Gated (fun _ t => Sealed t)
      (ps2InitDevice L n deviceId port) w := by
  unfold ps2InitDevice
  by_cases hunknown : getDeviceType deviceId = .devUnknown
  · rw [if_pos hunknown]
    exact exact_aside (stays_getKernel.bind fun _ => stays_println polls_aside _ _) h
  · rw [if_neg hunknown]
    have hreport : ∀ m, Stays Aside SameGates (printMessage m) := fun m =>
      stays_printMessage ⟨trivial, nofun⟩
    refine Prog.Exact.bind ((exact_aside (hreport _) h).post fun _ t ht => ?_)
    by_cases hkbd : getDeviceKind (getDeviceType deviceId) = .keyboard
    · rw [if_pos hkbd]
      exact exact_ps2KbdInit L n port ht
    · rw [if_neg hkbd]
      exact Prog.exact_ret ht

/-- Starting a port keeps the seal, unless it starts the keyboard driver. -/
theorem exact_ps2StartPort (L : Layout) (n : ℕ) (port : Port) {w : World (I8259.State ρ)}
    (h : Sealed w) :
    Prog.Exact (machine (I8259.bus rest)) Guarded Gated (fun _ t => Sealed t)
      (ps2StartPort L n port) w := by
  unfold ps2StartPort
  refine exact_getKernel trivial h.gated ?_
  by_cases hop : Ps2Statics.operational w.kernel.ps2 port = true
  · rw [if_pos hop]
    have hreset : Stays Aside SameGates (resetPort n port) :=
      stays_resetPort polls_aside (assignsIds_sameGates port) (calls_aside ⟨nofun, nofun⟩)
        (drives_aside port) n
    refine Prog.Exact.bind ((exact_aside hreset h).post fun _ t ht => ?_)
    exact exact_getKernel trivial ht.gated (exact_ps2InitDevice L n _ port ht)
  · rw [if_neg hop]
    exact exact_aside (stays_modifyDeviceId (assignsIds_sameGates port) _) h

/-- `ps2_init` keeps the seal, unless it starts the keyboard driver. -/
theorem exact_ps2Init (L : Layout) (n : ℕ) {w : World (I8259.State ρ)} (h : Sealed w) :
    Prog.Exact (machine (I8259.bus rest)) Guarded Gated (fun _ t => Sealed t)
      (ps2Init L n) w := by
  have hsends : ∀ cs : List Byte, ∀ c ∈ cs, Sends Aside c := fun _ c _ => sends_aside c
  have hdisable : Stays Aside SameGates ps2Disable := stays_ps2Disable talks_aside (hsends _)
  have htest : ∀ config, Stays Aside SameGates (ps2TestController config) :=
    stays_ps2TestController talks_aside (hsends _)
  have hdetect : Stays Aside SameGates ps2DetectChannels :=
    stays_ps2DetectChannels talks_aside (hsends _) assignsPs2_sameGates
  have hports : Stays Aside SameGates ps2TestPorts :=
    stays_ps2TestPorts talks_aside (hsends _) assignsPs2_sameGates
  have henable : Stays Aside SameGates ps2EnablePorts :=
    stays_ps2EnablePorts polls_aside (hsends _)
  have hinterrupts : Stays Aside SameGates ps2EnableInterrupts :=
    stays_ps2EnableInterrupts talks_aside (hsends _)
  unfold ps2Init
  refine Prog.Exact.bind ((exact_aside hdisable h).post fun config t ht => ?_)
  refine Prog.Exact.bind ((exact_aside (htest config) ht).post fun passed t ht => ?_)
  cases passed with
  | false => exact Prog.exact_ret ht
  | true =>
    refine Prog.Exact.bind ((exact_aside hdetect ht).post fun _ t ht => ?_)
    refine Prog.Exact.bind ((exact_aside hports ht).post fun _ t ht => ?_)
    refine exact_getKernel trivial ht.gated ?_
    split_ifs with hnone
    · exact exact_aside (stays_println polls_aside _ _) ht
    · refine Prog.Exact.bind ((exact_aside henable ht).post fun _ t ht => ?_)
      refine Prog.Exact.bind ((exact_aside hinterrupts ht).post fun _ t ht => ?_)
      refine Prog.Exact.bind ((exact_ps2StartPort L n .port0 ht).post fun _ t ht => ?_)
      exact exact_ps2StartPort L n .port1 ht

/-! ### The boot sequence -/

/-- Behind a firmware that masks all lines, `main` is gated exactly along guarded runs. -/
theorem exact_main (rest : Bus ρ) (offset0 offset1 : Byte) (r : ρ) {table : Idt}
    (ht : ∀ v, (table.gate v).present = false) (mem : Mem) (L : Layout) (n : ℕ) :
    Prog.Exact (machine (I8259.bus rest)) Guarded Gated (fun _ t => Sealed t) (main L n)
      (.boot (firmware 0xff 0xff offset0 offset1 r) table mem) := by
  obtain ⟨s, t, hgreet, hoff, hpic, hready⟩ :=
    run_beforeIdt rest 0xff 0xff offset0 offset1 r ht mem
  have hprint : ∀ text, Stays Aside SameGates (println text []) := fun text =>
    stays_println polls_aside text []
  have hrsdp : Stays Aside SameGates Acpi.initRsdp :=
    Acpi.stays_initRsdp scans_aside assignsAcpi_sameGates
  have hexists : Stays Aside SameGates Acpi.ps2ControllerExists :=
    Acpi.stays_ps2ControllerExists scans_aside
  unfold main
  refine Prog.Exact.bind (exact_dark stays_mainGreet rfl fun _ s' hs' => ?_)
  obtain ⟨-, rfl⟩ := Prod.mk.inj (hgreet.symm.trans hs')
  refine Prog.Exact.bind (exact_dark stays_picInit hoff fun _ t' ht' => ?_)
  obtain ⟨-, rfl⟩ := Prod.mk.inj (hpic.symm.trans ht')
  refine Prog.Exact.bind ((exact_idtInit L hready).post fun _ u hu => ?_)
  refine Prog.Exact.bind ((exact_aside (hprint _) hu).post fun _ u hu => ?_)
  refine Prog.Exact.bind (Prog.Exact.bind ((exact_aside hrsdp hu).post fun _ u hu => ?_))
  refine (exact_acpiEnable n hu).post fun _ u hu => ?_
  refine Prog.Exact.bind ((exact_aside (hprint _) hu).post fun _ u hu => ?_)
  refine Prog.Exact.bind ((exact_aside hexists hu).post fun found u hu => ?_)
  cases found with
  | true =>
    refine Prog.Exact.bind ((exact_ps2Init L n hu).post fun _ u hu => ?_)
    exact exact_aside (hprint _) hu
  | false =>
    refine Prog.Exact.bind ((exact_aside (hprint _) hu).post fun _ u hu => ?_)
    exact exact_aside (hprint _) hu

/-- The state in which interrupts come on is one of the run. -/
theorem exists_not_gated (rest : Bus ρ) {mask0 mask1 : Byte}
    (hmask : ¬ (mask0 = 0xff ∧ mask1 = 0xff)) (offset0 offset1 : Byte) (r : ρ) {table : Idt}
    (ht : ∀ v, (table.gate v).present = false) (mem : Mem) (L : Layout) (n : ℕ) :
    ∃ t ∈ (main L n).states (machine (I8259.bus rest))
      (.boot (firmware mask0 mask1 offset0 offset1 r) table mem), ¬ Gated t := by
  obtain ⟨s, t, hgreet, -, hpic, hready⟩ :=
    run_beforeIdt rest mask0 mask1 offset0 offset1 r ht mem
  refine ⟨afterIdtInit L t, ?_, hready.not_gated hmask L⟩
  have hlast : afterIdtInit L t ∈ (idtInit L).states (machine (I8259.bus rest)) t :=
    List.mem_of_getElem? (i := 2) rfl
  unfold main
  rw [Prog.states_bind_of_some _ hgreet]
  refine List.mem_append_right _ ?_
  rw [Prog.states_bind_of_some _ hpic, Prog.states_bind]
  exact List.mem_append_right _ (List.mem_append_left _ hlast)

/-- **When no unmasked line is without a gate.**  For all masks that the firmware
left, over any rest of the machine and a table without present gates: at every
point of the boot at which interrupts are enabled each unmasked line has a gate,
if and only if the firmware had masked every line, and nothing that `Guarded`
excludes is asked for. -/
theorem main_gated_iff (rest : Bus ρ) (mask0 mask1 offset0 offset1 : Byte) (r : ρ) (table : Idt)
    (ht : ∀ v, (table.gate v).present = false) (mem : Mem) (L : Layout) :
    (∀ n, ∀ t ∈ (main L n).states (machine (I8259.bus rest))
        (.boot (firmware mask0 mask1 offset0 offset1 r) table mem), Gated t) ↔
      (mask0 = 0xff ∧ mask1 = 0xff) ∧
      ∀ n, ∀ x ∈ (main L n).asked (machine (I8259.bus rest))
        (.boot (firmware mask0 mask1 offset0 offset1 r) table mem), Guarded x.1 x.2 := by
  by_cases hmask : mask0 = 0xff ∧ mask1 = 0xff
  · obtain ⟨rfl, rfl⟩ := hmask
    have hexact := fun n => (exact_main rest offset0 offset1 r ht mem L n).iff
    exact ⟨fun h => ⟨⟨rfl, rfl⟩, fun n => (hexact n).1 (h n)⟩, fun h n => (hexact n).2 (h.2 n)⟩
  · refine ⟨fun h => ?_, fun h => absurd h.1 hmask⟩
    obtain ⟨t, hmem, hgate⟩ :=
      exists_not_gated rest hmask offset0 offset1 r ht mem L 0
    exact absurd (h 0 t hmem) hgate

/-- The statement for a firmware that masks every line, with nothing else in the machine. -/
theorem main_gated_iff_silent :
    (∀ n, ∀ t ∈ (main Layout.sample n).states (machine (I8259.bus .silent))
        (.boot (firmware 0xff 0xff 0x08 0x70 ()) emptyIdt fun _ => 0), Gated t) ↔
      ((0xff : Byte) = 0xff ∧ (0xff : Byte) = 0xff) ∧
      ∀ n, ∀ x ∈ (main Layout.sample n).asked (machine (I8259.bus .silent))
        (.boot (firmware 0xff 0xff 0x08 0x70 ()) emptyIdt fun _ => 0), Guarded x.1 x.2 :=
  main_gated_iff .silent 0xff 0xff 0x08 0x70 () emptyIdt emptyIdt_present (fun _ => 0)
    Layout.sample

/-- **The timer has no gate.**  The firmware left lines 0, 1, 2 and 6 unmasked. -/
theorem not_gated_timer :
    ¬ ∀ t ∈ (main Layout.sample 0).states (machine (I8259.bus .silent))
      (.boot (firmware 0xb8 0x8f 0x08 0x70 ()) emptyIdt fun _ => 0), Gated t := by
  intro h
  have hmask : ¬ ((0xb8 : Byte) = 0xff ∧ (0x8f : Byte) = 0xff) := by decide
  obtain ⟨t, hmem, hgate⟩ := exists_not_gated .silent hmask 0x08 0x70 () emptyIdt_present
    (fun _ => 0) Layout.sample 0
  exact hgate (h t hmem)

end DrewOS
