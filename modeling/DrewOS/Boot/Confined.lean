/-
# What the boot sequence does to the machine

`main`, over any devices and any memory, from the call to any point of its run.  It
writes to the ports of the devices that it drives and, once at most, to a port that the
firmware's table names; it raises `int 0x21`, once at most; and of the interrupt
descriptor table it changes the exceptions and the gate of the keyboard.  What is on the
way to a point is its stage (`DrewOS.Boot.Stages`): one lemma for each function says how
it goes from one stage to the next.

The code behind `int 0x21` is a parameter of all this, of which it is asked that it
keeps the stage (`KeepsStage`): the stub of the interrupts does, where its wild pointer
is `NULL` (`keepsStage_genericStub`).  A hardware interrupt is never taken.
-/

import DrewOS.Boot.Stages

namespace DrewOS

open ByteMem Effect

variable {ε α : Type}

/-! ### The statics on the way -/

/-- The tables of `idt.c` with the exceptions and the keyboard. -/
def drivenIdt (L : Layout) (table : Idt) : Idt :=
  idtInstallIrqHandler L 0x21 (L.ptr .ps2KbdIrqHandler) (idtInitGates L table)

/-- The tables of `idt.c` during the boot that found `table`, and how many interrupts it
has raised: none before the keyboard's handler is installed. -/
inductive Tables (L : Layout) (table : Idt) : ℕ → Idt → Prop
  | found : Tables L table 0 table
  | filled : Tables L table 0 (idtInitGates L table)
  | driven {ints : ℕ} (h : ints ≤ 1) : Tables L table ints (drivenIdt L table)

/-- A table behind more interrupts is one behind fewer. -/
theorem Tables.mono {L : Layout} {table t : Idt} {i j : ℕ} (h : Tables L table j t)
    (hij : i ≤ j) : Tables L table i t := by
  cases h with
  | found => exact Nat.le_zero.1 hij ▸ .found
  | filled => exact Nat.le_zero.1 hij ▸ .filled
  | driven h => exact .driven (hij.trans h)

section Tables

variable {L : Layout} {table t : Idt} {ints : ℕ}

/-- There is one interrupt at most. -/
theorem Tables.le_one (h : Tables L table ints t) : ints ≤ 1 := by
  cases h with
  | driven h => exact h
  | _ => exact Nat.zero_le 1

/-- Behind the interrupt, the table is that of the keyboard driver. -/
theorem Tables.eq_drivenIdt (h : Tables L table ints t) (hints : 0 < ints) :
    t = drivenIdt L table := by
  cases h with
  | driven h => rfl
  | _ => exact absurd hints (lt_irrefl 0)

/-- `idt_init` fills gates, and installs no handler. -/
theorem handlers_idtInitGates (L : Layout) (t : Idt) :
    (idtInitGates L t).handlers = t.handlers := by
  have hloop : ∀ (vs : List (Fin 32)) (u : Idt), (vs.foldl (fun u v =>
      idtSetDescriptor (BitVec.ofNat 8 v.val) (L.addr (initialIsr v)) 0x8e u) u).handlers =
        u.handlers := by
    intro vs
    induction vs with
    | nil => exact fun _ => rfl
    | cons v vs ih => exact fun u => ih _
  exact hloop _ t

theorem handlers_drivenIdt (L : Layout) (t : Idt) :
    (drivenIdt L t).handlers = Function.update t.handlers 0x21 (L.addr .ps2KbdIrqHandler) := by
  show Function.update (idtInitGates L t).handlers 0x21 (L.addr .ps2KbdIrqHandler) = _
  rw [handlers_idtInitGates]

/-- The gate of a vector: as it was found, that of an exception, or that of the keyboard. -/
theorem Tables.gate (h : Tables L table ints t) (v : Byte) : t.gate v = table.gate v ∨
    (∃ h : v.toNat < 32, t.gate v = externalGate (L.addr (initialIsr ⟨v.toNat, h⟩))) ∨
    v = 0x21 ∧ t.gate v = externalGate (L.addr .genericIsrStub) := by
  have hfilled : (idtInitGates L table).gate v = table.gate v ∨ ∃ h : v.toNat < 32,
      (idtInitGates L table).gate v = externalGate (L.addr (initialIsr ⟨v.toNat, h⟩)) := by
    rw [gate_idtInitGates]
    split_ifs with hv
    · exact .inr ⟨hv, rfl⟩
    · exact .inl rfl
  cases h with
  | found => exact .inl rfl
  | filled => exact hfilled.imp_right .inl
  | driven _ =>
    by_cases hv : v = 0x21
    · subst hv
      exact .inr (.inr ⟨rfl, gate_idtInstallIrqHandler L ..⟩)
    · rw [drivenIdt, gate_idtInstallIrqHandler_ne L hv]
      exact hfilled.imp_right .inl

/-- The handler of a vector: as it was found, or that of the keyboard. -/
theorem Tables.handler (h : Tables L table ints t) (v : Byte) : t.handlers v = table.handlers v ∨
    v = 0x21 ∧ t.handlers v = L.addr .ps2KbdIrqHandler := by
  cases h with
  | found => exact .inl rfl
  | filled => exact .inl (congrFun (handlers_idtInitGates L table) v)
  | driven _ =>
    rw [handlers_drivenIdt]
    by_cases hv : v = 0x21
    · subst hv
      exact .inr ⟨rfl, Function.update_self ..⟩
    · exact .inl (Function.update_of_ne hv ..)

end Tables

/-- The statics when the drivers are started, those of `ps2.c` apart. -/
def startedKernel (L : Layout) (table : Idt) (ram : Mem) : Kernel :=
  { Kernel.boot table with
    pic := ⟨0x20, 0x28⟩
    idt := idtInitGates L table
    acpi := acpiTables ram }

/-- And once the keyboard driver runs. -/
def drivenKernel (L : Layout) (table : Idt) (ram : Mem) (port : Port) : Kernel :=
  { startedKernel L table ram with
    kbd := ⟨0x21, port⟩
    idt := drivenIdt L table }

/-- Between two calls of the drivers: the keyboard driver has not been started, or it
has, and has raised its interrupt. -/
def Settled (L : Layout) (table : Idt) (ram : Mem) (w : World ε) : Prop :=
  Stage ram (startedKernel L table ram) 0 1 w ∨
    ∃ port, Stage ram (drivenKernel L table ram port) 1 1 w ∧ .int 0x21 ∈ w.log

/-- The code behind the interrupt does no more than the drivers do. -/
def KeepsStage (b : Bus ε) (L : Layout) (table : Idt) (ram : Mem) (trap : Kern Unit) : Prop :=
  ∀ port (w : World ε), Stage ram (drivenKernel L table ram port) 1 1 w →
    Stage ram (drivenKernel L table ram port) 1 1 (trap.run (machine b) w).2

/-- **What is so at every point of the boot.** -/
structure Contained (L : Layout) (table : Idt) (ram : Mem) (w : World ε) : Prop where
  idt : Tables L table (w.log.countP isInt) w.kernel.idt
  allowed : ∀ e ∈ w.log, Allowed ram e
  foreign : w.log.countP isForeign ≤ 1
  printed : w.log <+: greetLog ∨ ∃ l, w.log = greetLog ++ l ∧ ∀ e ∈ l, Later ram e

section Run

variable {L : Layout} {table : Idt} {ram : Mem} {k : Kernel} {ints foreign : ℕ} {w : World ε}
  {b : Bus ε} {trap : Kern Unit}

/-- The greeting is neither an interrupt nor a foreign write. -/
theorem countP_greetLog : greetLog.countP isInt = 0 ∧ greetLog.countP isForeign = 0 := by
  decide

/-- At every stage the code is confined. -/
theorem Stage.confined (h : Stage ram k ints foreign w) (hk : Tables L table ints k.idt)
    (hforeign : foreign ≤ 1) : Contained L table ram w := by
  obtain ⟨l, hl, hall, hints', hforeign'⟩ := h.log
  obtain ⟨hint₀, hforeign₀⟩ := countP_greetLog
  obtain ⟨p, hp⟩ := h.kernel
  refine ⟨?_, fun e he => ?_, ?_, .inr ⟨l, hl, fun e he => (hall e he).2⟩⟩
  · rw [hp]
    refine hk.mono ?_
    rw [hl, List.countP_append, hint₀, Nat.zero_add]
    exact hints'
  · rw [hl] at he
    exact (List.mem_append.1 he).elim (allowed_greetLog ram e) fun he => (hall e he).1
  · rw [hl, List.countP_append, hforeign₀]
    omega

theorem Stage.started (h : Stage ram (startedKernel L table ram) 0 1 w) : Contained L table ram w :=
  h.confined .filled le_rfl

/-- Behind `acpi_init` the code is confined. -/
theorem Settled.confined (h : Settled L table ram w) : Contained L table ram w := by
  rcases h with h | ⟨port, h, -⟩
  · exact h.started
  · exact h.confined (.driven le_rfl) le_rfl

/-! ### The code behind the interrupt -/

/-- Code that does nothing keeps every stage. -/
theorem keepsStage_ret : KeepsStage b L table ram (.ret ()) := fun _ _ h => h

/-- **The stub of the interrupts keeps the stage** where the word at `handlers[EIP]` is
`NULL`. -/
theorem keepsStage_genericStub {eip : Dword} (h : table.NullAt eip) :
    KeepsStage b L table ram (genericStub eip) := by
  intro port w hw
  have hnull : w.kernel.idt.NullAt eip := by
    obtain ⟨p, hp⟩ := hw.kernel
    rw [hp]
    exact h.congr (pastHandlers_idtInitGates L table)
  obtain ⟨t, hrun, ⟨l, hl, hall⟩, hkernel⟩ := run_genericStub b hnull.handlerAt
  have hmem : t.mem = w.mem := (sat_mem b (genericStub eip) w).run hrun
  rw [hrun]
  exact hw.plain hmem (hkernel ▸ hw.kernel) hl fun e he =>
    (ordinary_of_reporting (hall e he)).plain ram

/-! ### The interrupt controllers and the gates -/

/-- `pic_init()`. -/
theorem sat_picInit (h : Stage ram k ints foreign w) :
    Prog.Sat (machine b) (Stage ram { k with pic := ⟨0x20, 0x28⟩ } ints foreign)
      (fun _ t => Stage ram { k with pic := ⟨0x20, 0x28⟩ } ints foreign t) picInit w := by
  have hset := h.assign (fun k => { k with pic := ⟨0x20, 0x28⟩ }) fun _ => rfl
  have hwrite : ∀ {port : Word} (d : Byte), port ∈ driverPorts → Orderly (writeByte port d) :=
    fun d hport => orderly_writeByte hport d
  refine ⟨hset, sat_orderly ?_ hset⟩
  refine (orderly_readByte (by decide)).bind fun _ => ?_
  refine (orderly_readByte (by decide)).bind fun _ => ?_
  -- sixteen writes of initialisation words and pauses, and the two masks
  repeat refine Stays.bind (hwrite _ (by decide)) fun _ => ?_
  exact stays_ret _

/-- `idt_init()`. -/
theorem sat_idtInit (L : Layout) (h : Stage ram k ints foreign w) :
    Prog.Sat (machine b) (Stage ram { k with idt := idtInitGates L k.idt } ints foreign)
      (fun _ t => Stage ram { k with idt := idtInitGates L k.idt } ints foreign t) (idtInit L)
      w := by
  have hset := h.assign (fun k => { k with idt := idtInitGates L k.idt }) fun _ => rfl
  have hlidt := hset.say (e := .lidt) ⟨trivial, trivial, rfl, rfl⟩
  have hsti := hlidt.say (e := .sti) ⟨trivial, trivial, rfl, rfl⟩
  have hflag : Stage ram { k with idt := idtInitGates L k.idt } ints foreign
      (machine b .sti (World.say { w with kernel := { w.kernel with
        idt := idtInitGates L w.kernel.idt } } .lidt)).2 := ⟨hsti.mem, hsti.kernel, hsti.log⟩
  exact ⟨hset, hlidt, hflag, hflag⟩

/-! ### The drivers -/

/-- An orderly part, and what comes behind it. -/
theorem Stage.bind {β : Type} {I : World ε → Prop} {Q : β → World ε → Prop} {p : Kern α}
    {f : α → Kern β} (h : Stage ram k ints foreign w)
    (hI : ∀ t : World ε, Stage ram k ints foreign t → I t) (hp : Orderly p)
    (hf : ∀ a t, Stage ram k ints foreign t → Prog.Sat (trapping b trap) I Q (f a) t) :
    Prog.Sat (trapping b trap) I Q (p >>= f) w :=
  (Prog.sat_bind p f w).2 ((sat_trapping hp.unraised (sat_orderly hp h)).mono hI hf)

/-- Orderly code between two calls. -/
theorem Settled.orderly {p : Kern α} (hp : Orderly p) (h : Settled L table ram w) :
    Prog.Sat (trapping b trap) (Contained L table ram) (fun _ t => Settled L table ram t) p w := by
  refine sat_trapping hp.unraised ?_
  rcases h with h | ⟨port, h, hraised⟩
  · exact (sat_orderly hp h).mono (fun _ ht => ht.started) fun _ _ ht => .inl ht
  · refine ((sat_orderly hp h).and (sat_grows b p w)).mono (fun _ ht => ?_) fun _ _ ht => ?_
    · exact ht.1.confined (.driven le_rfl) le_rfl
    · exact .inr ⟨port, ht.1, ht.2.subset hraised⟩

/-- Settledness survives the mark of a return. -/
theorem Settled.mark (h : Settled L table ram w) {e : Event} (he : Ordinary e) :
    Settled L table ram (w.say e) :=
  h.imp (fun h => h.mark he) fun ⟨port, h, hraised⟩ =>
    ⟨port, h.mark he, List.mem_append_left _ hraised⟩

/-- One operation, and what comes behind it. -/
theorem sat_one {σ β : Type} {m : Machine io σ} {s : σ} {I : σ → Prop} {Q : β → σ → Prop} {o : Op}
    {K : Op.Answer o → Kern β} (hI : I (m o s).2) (hK : Prog.Sat m I Q (K (m o s).1) (m o s).2) :
    Prog.Sat m I Q ((Prog.ask o .ret : Prog io (Op.Answer o)) >>= K) s :=
  ⟨hI, hK⟩

/-- An orderly part between two calls. -/
theorem Settled.bind {β : Type} {p : Kern α} {f : α → Kern β} (h : Settled L table ram w)
    (hp : Orderly p) (hf : ∀ a t, Settled L table ram t → Prog.Sat (trapping b trap)
      (Contained L table ram) (fun _ u => Settled L table ram u) (f a) t) :
    Prog.Sat (trapping b trap) (Contained L table ram) (fun _ u => Settled L table ram u)
      (p >>= f) w :=
  (Prog.sat_bind p f w).2 ((h.orderly hp).post hf)

namespace Ps2

variable (htrap : KeepsStage b L table ram trap)

include htrap

/-- **Starting the keyboard driver**: its handler is installed and its interrupt raised. -/
theorem sat_ps2KbdStart (n : ℕ) (port : Port)
    (h : Stage ram { startedKernel L table ram with kbd := ⟨0x21, port⟩ } 0 1 w) :
    Prog.Sat (trapping b trap) (Contained L table ram) (fun _ t => Settled L table ram t)
      (ps2KbdStart L n port) w := by
  have hI : ∀ t : World ε, Stage ram { startedKernel L table ram with kbd := ⟨0x21, port⟩ } 0 1 t →
      Contained L table ram t := fun _ ht => ht.confined .filled le_rfl
  refine h.bind hI (orderly_println rfl) fun _ t h => ?_
  refine h.bind hI (orderly_println rfl) fun _ t h => ?_
  refine h.bind hI (orderly_irqClearMask (by decide) (by decide)) fun _ t h => ?_
  refine h.bind hI (orderly_println rfl) fun _ t h => ?_
  refine h.bind hI (orderly_ps2KbdSendCmd n _) fun _ t h => ?_
  refine h.bind hI (orderly_println rfl) fun _ t h => ?_
  refine h.bind hI (orderly_ps2KbdSetScanCodes n _) fun _ t h => ?_
  refine h.bind hI (orderly_println rfl) fun _ t h => ?_
  -- the vector that `ps2_kbd_init` has stored is 0x21
  have hdriven := h.assign (fun k => { k with
    idt := idtInstallIrqHandler L k.kbd.vector (L.ptr .ps2KbdIrqHandler) k.idt }) fun _ => rfl
  have hI' : ∀ (i : ℕ) (t : World ε), i ≤ 1 → Stage ram (drivenKernel L table ram port) i 1 t →
      Contained L table ram t := fun _ _ hi ht => ht.confined (.driven hi) le_rfl
  refine sat_one (hI' 0 _ (Nat.zero_le 1) hdriven) ?_
  refine Stage.bind hdriven (fun t => hI' 0 t (Nat.zero_le 1)) (orderly_println rfl)
    fun _ t h => ?_
  have hint : Stage ram (drivenKernel L table ram port) 1 1 (t.say (.int 0x21)) := by
    refine h.append (t := t.say (.int 0x21)) (l := [.int 0x21]) rfl h.kernel rfl
      (fun e he => ?_) le_rfl le_rfl
    rw [List.mem_singleton.1 he]
    exact ⟨rfl, trivial⟩
  -- the interrupt is logged, and its code keeps the stage
  have hraised : Settled L table ram (trapping b trap (.int 0x21) t).2 :=
    .inr ⟨port, htrap port _ hint, int_mem_log b trap 0x21 t⟩
  exact sat_one hraised.confined (hraised.orderly (orderly_println rfl))

/-- **A second call of `ps2_kbd_init` does nothing.** -/
theorem settles_ps2KbdInit (n : ℕ) (port : Port) (h : Settled L table ram w) :
    Prog.Sat (trapping b trap) (Contained L table ram) (fun _ t => Settled L table ram t)
      (ps2KbdInit L n port) w := by
  have hentered := h.mark (e := .enter (.kbdInit port)) trivial
  -- what is behind the mark, and the mark of the return
  refine ⟨hentered.confined, (Prog.sat_bind _ (fun _ => leave (.kbdInit port) none) _).2 ?_⟩
  have hleave : ∀ t : World ε, Settled L table ram t → Prog.Sat (trapping b trap)
      (Contained L table ram) (fun _ t => Settled L table ram t)
      (leave (.kbdInit port) none) t := fun t ht =>
    ht.orderly ⟨trivial, fun _ => trivial⟩
  rcases h with h | ⟨port', h, hraised⟩
  · have hentered' := h.mark (e := .enter (.kbdInit port)) trivial
    have hvector : (w.say (.enter (.kbdInit port))).kernel.kbd.vector = 0 :=
      congrArg KbdStatics.vector hentered'.kbd
    refine sat_one hentered'.started ?_
    show Prog.Sat _ _ _ (if (w.say (.enter (.kbdInit port))).kernel.kbd.vector ≠ 0 then _ else _) _
    rw [if_neg (not_not.2 hvector)]
    have hset := hentered'.assign
      (fun k => { k with kbd := ⟨picGetVector k.pic PS2_KBD_IRQ, port⟩ }) fun _ => rfl
    refine sat_one (hset.confined .filled le_rfl) ?_
    exact (sat_ps2KbdStart htrap n port hset).post fun _ t ht => hleave t ht
  · have hentered' := h.mark (e := .enter (.kbdInit port)) trivial
    have hvector : (w.say (.enter (.kbdInit port))).kernel.kbd.vector ≠ 0 := by
      rw [hentered'.kbd]
      exact (by decide : (0x21 : Byte) ≠ 0)
    refine sat_one hentered.confined ?_
    show Prog.Sat _ _ _ (if (w.say (.enter (.kbdInit port))).kernel.kbd.vector ≠ 0 then _ else _) _
    rw [if_pos hvector]
    exact hleave _ hentered

/-- `ps2_init_device(device_id, port)`. -/
theorem settles_ps2InitDevice (n : ℕ) (deviceId : Word) (port : Port) (h : Settled L table ram w) :
    Prog.Sat (trapping b trap) (Contained L table ram) (fun _ t => Settled L table ram t)
      (ps2InitDevice L n deviceId port) w := by
  unfold ps2InitDevice
  rw [Prog.sat_ite]
  refine ⟨fun _ => h.orderly (stays_getKernel.bind fun _ => orderly_println rfl), fun _ => ?_⟩
  refine h.bind (orderly_println (isLine_success port _)) fun _ t ht => ?_
  rw [Prog.sat_ite]
  exact ⟨fun _ => settles_ps2KbdInit htrap n port ht, fun _ => ht⟩

/-- A port is reset, and its device is started. -/
theorem settles_ps2StartPort (n : ℕ) (port : Port) (h : Settled L table ram w) :
    Prog.Sat (trapping b trap) (Contained L table ram) (fun _ t => Settled L table ram t)
      (ps2StartPort L n port) w := by
  refine h.bind stays_getKernel fun k t ht => ?_
  rw [Prog.sat_ite]
  refine ⟨fun _ => ?_, fun _ => ht.orderly (orderly_modifyDeviceId _ _)⟩
  exact ht.bind (orderly_resetPort n port) fun _ u hu => hu.bind stays_getKernel fun k v hv =>
    settles_ps2InitDevice htrap n _ port hv

/-- `ps2_init()`. -/
theorem settles_ps2Init (n : ℕ) (h : Settled L table ram w) :
    Prog.Sat (trapping b trap) (Contained L table ram) (fun _ t => Settled L table ram t)
      (ps2Init L n) w := by
  refine h.bind orderly_ps2Disable fun config t ht => ?_
  refine ht.bind (orderly_ps2TestController config) fun sound u hu => ?_
  rw [Prog.sat_ite]
  refine ⟨fun _ => ?_, fun _ => hu⟩
  refine hu.bind orderly_ps2DetectChannels fun _ t ht => ?_
  refine ht.bind orderly_ps2TestPorts fun _ u hu => ?_
  refine hu.bind stays_getKernel fun k t ht => ?_
  rw [Prog.sat_ite]
  refine ⟨fun _ => ht.orderly (orderly_println rfl), fun _ => ?_⟩
  refine ht.bind orderly_ps2EnablePorts fun _ u hu => ?_
  refine hu.bind orderly_ps2EnableInterrupts fun _ t ht => ?_
  exact (Prog.sat_bind _ _ _).2 ((settles_ps2StartPort htrap n .port0 ht).post fun _ u hu =>
    settles_ps2StartPort htrap n .port1 hu)

end Ps2

/-! ### `main` -/

/-- The greeting clears the screen, prints, writes to the ports of the cursor and
assigns nothing. -/
theorem stays_greeting {E : Event → Prop} {F : Kernel → Kernel → Prop} (hclear : E .clrscr)
    (hprint : ∀ m, E (.print m)) (hout : ∀ port ∈ [REG_CTRL, REG_DATA], ∀ d, E (.outb port d)) :
    Stays E F mainGreet :=
  Stays.bind (p := clearScreen) ⟨hclear, fun _ => trivial⟩ fun _ =>
    ((stays_writeByte (hout _ (by decide) _)).bind fun _ =>
      stays_writeByte (hout _ (by decide) _)).bind fun _ =>
    (stays_printMessage (hprint _)).bind fun _ => (stays_printMessage (hprint _)).bind fun _ =>
    (stays_printMessage (hprint _)).bind fun _ =>
    (stays_printColours hprint _).bind fun _ => stays_printMessage (hprint _)

/-- `pic_init` reads the masks, and writes to the ports of the chips and to the one of the
pauses. -/
theorem stays_remap {E : Event → Prop} {F : Kernel → Kernel → Prop}
    (hpic : ∀ k p, F k { k with pic := p })
    (hin : ∀ port ∈ [PIC_MASTER_DATA, PIC_SLAVE_DATA], ∀ r, E (.inb port r))
    (hout : ∀ port ∈ 0x80 :: I8259.ports, ∀ d, E (.outb port d)) : Stays E F picInit := by
  refine (stays_modifyKernel fun k => hpic k _).bind fun _ => ?_
  refine (stays_readByte (hin _ (by decide))).bind fun _ => ?_
  refine (stays_readByte (hin _ (by decide))).bind fun _ => ?_
  repeat refine Stays.bind (stays_writeByte (hout _ (by decide) _)) fun _ => ?_
  exact stays_ret _

/-- `idt_init` assigns the gates, loads the table and sets the interrupt flag. -/
theorem stays_idtInit (L : Layout) {E : Event → Prop} {F : Kernel → Kernel → Prop}
    (hidt : ∀ k t, F k { k with idt := t }) (hlidt : E .lidt) (hsti : E .sti) :
    Stays E F (idtInit L) :=
  ⟨fun k => hidt k _, fun _ => ⟨hlidt, fun _ => ⟨hsti, fun _ => trivial⟩⟩⟩

/-- At a point of the greeting, a part of it has been done. -/
theorem confined_of_prefix (L : Layout) {table : Idt} {t : World ε}
    (hidt : t.kernel.idt = table) (hlog : t.log <+: greetLog) : Contained L table ram t where
  idt := (hidt ▸ Tables.found : Tables L table 0 t.kernel.idt).mono <|
    hlog.sublist.countP_le.trans countP_greetLog.1.le
  allowed e he := allowed_greetLog ram e (hlog.subset he)
  foreign := hlog.sublist.countP_le.trans (countP_greetLog.2.le.trans (Nat.zero_le 1))
  printed := .inl hlog

/-- The bars of `main`. -/
theorem run_printColours (bgs : List Console.Colour) (w : World ε) :
    (printColours bgs).run (machine b) w = (some (), { w with
      log := w.log ++ bgs.map fun bg => .print ⟨"     ", bg, bg, [], false⟩ }) := by
  induction bgs generalizing w with
  | nil =>
    rw [List.map_nil, List.append_nil]
    rfl
  | cons bg bgs ih =>
    rw [List.map_cons, List.append_cons]
    exact ih (w.say (.print ⟨"     ", bg, bg, [], false⟩))

/-- **The log of the greeting.** -/
theorem log_mainGreet (w : World ε) :
    (mainGreet.run (machine b) w).2.log = w.log ++ greetLog := by
  have hclear : clearScreen.run (machine b) w = (some (), w.say .clrscr) := rfl
  unfold mainGreet disableCursor println
  rw [Prog.run_bind_of_some _ hclear]
  simp only [Prog.run_bind, run_writeByte, run_printMessage, run_printColours, World.say_log,
    afterOutb_log, List.append_assoc]
  rfl

/-- The greeting is confined, and leaves the kernel as it was. -/
theorem sat_mainGreet (L : Layout) (e : ε) (table : Idt) (ram : Mem) :
    Prog.Sat (machine b) (Contained L table ram)
      (fun _ t => Stage ram (.boot table) 0 0 t) mainGreet (.boot e table ram) := by
  have hstays : Stays (fun _ => True) (fun k k' => k' = k) mainGreet :=
    stays_greeting trivial (fun _ => trivial) fun _ _ _ => trivial
  have hsame := sat_stays_same b hstays (.boot e table ram)
  have hsat := hsame.and (sat_mem b mainGreet (.boot e table ram))
  have hlast : (mainGreet.run (machine b) (.boot e table ram)).2.log = greetLog :=
    log_mainGreet _
  refine (Prog.sat_iff _ _).2 ⟨fun u hu => ?_, fun a t hrun => ?_⟩
  · obtain ⟨hext, -⟩ := hsat.states u hu
    refine confined_of_prefix L (congrArg Kernel.idt hext.kernel) ?_
    rw [← hlast]
    exact prefix_of_mem_states b mainGreet _ u hu
  · obtain ⟨hext, hmem⟩ := hsat.run hrun
    rw [hrun] at hlast
    refine ⟨hmem, hext.kernel ▸ OnlyPs2.refl _, [], ?_, ?_, le_rfl, le_rfl⟩
    · exact hlast.trans (List.append_nil _).symm
    · exact fun _ he => absurd he List.not_mem_nil

/-- `acpi_init()`. -/
theorem sat_acpiInit (n : ℕ) (h : Stage ram k 0 0 w)
    (hk : { k with acpi := acpiTables ram } = startedKernel L table ram)
    (hacpi : k.acpi = ⟨0, 0, 0, 0, 0, 0⟩) :
    Prog.Sat (machine b) (Contained L table ram)
      (fun _ t => Stage ram (startedKernel L table ram) 0 1 t) (Acpi.acpiInit n) w := by
  have hidt : k.idt = idtInitGates L table := congrArg Kernel.idt hk
  have hsearch : ∀ t : World ε, (∃ a, Stage ram { k with acpi := a } 0 0 t) →
      Contained L table ram t := by
    rintro t ⟨a, ht⟩
    refine ht.confined ?_ (Nat.zero_le 1)
    rw [show ({ k with acpi := a } : Kernel).idt = idtInitGates L table from hidt]
    exact .filled
  unfold Acpi.acpiInit
  rw [Prog.sat_bind]
  refine (sat_initRsdp h).mono hsearch fun _ t ht => ?_
  rw [hacpi] at ht
  have ht' : Stage ram (startedKernel L table ram) 0 0 t := hk ▸ ht
  exact (sat_acpiEnable n ht'.mem ht'.acpi).mono
    (fun u hu => (ht'.enabled hu).confined .filled le_rfl) fun _ u => ht'.enabled

/-- **`main` from stage to stage.** -/
theorem sat_main (L : Layout) (htrap : KeepsStage b L table ram trap) (n : ℕ) (e : ε) :
    Prog.Sat (trapping b trap) (Contained L table ram) (fun _ t => Settled L table ram t)
      (main L n) (.boot e table ram) := by
  have hgreet : Stays Unraised (fun _ _ => True) mainGreet :=
    stays_greeting trivial (fun _ => trivial) fun _ _ _ => trivial
  have hpic : Stays Unraised (fun _ _ => True) picInit :=
    stays_remap (fun _ _ => trivial) (fun _ _ _ => trivial) fun _ _ _ => trivial
  have hidt : Stays Unraised (fun _ _ => True) (idtInit L) :=
    stays_idtInit L (fun _ _ => trivial) trivial trivial
  have hscans : Acpi.Scans Unraised := ⟨fun _ => trivial, fun _ => trivial⟩
  have hacpi : Stays Unraised (fun _ _ => True) (Acpi.acpiInit n) :=
    (Acpi.stays_initRsdp hscans fun _ _ => trivial).bind fun _ =>
      Acpi.stays_acpiEnable hscans trivial trivial (fun _ _ => trivial) (fun _ _ => trivial) n
  unfold main
  rw [Prog.sat_bind]
  refine (sat_trapping hgreet (sat_mainGreet L e table ram)).post fun _ t ht => ?_
  rw [Prog.sat_bind]
  refine (sat_trapping hpic (sat_picInit ht)).mono (fun u hu => ?_) fun _ t ht => ?_
  · exact hu.confined .found (Nat.zero_le 1)
  rw [Prog.sat_bind]
  have hfilled : ∀ u : World ε, Stage ram { Kernel.boot table with
      pic := ⟨0x20, 0x28⟩, idt := idtInitGates L table } 0 0 u → Contained L table ram u :=
    fun u hu => hu.confined .filled (Nat.zero_le 1)
  refine (sat_trapping hidt (sat_idtInit L ht)).mono hfilled fun _ t ht => ?_
  refine Stage.bind ht hfilled (orderly_println rfl) fun _ t ht => ?_
  rw [Prog.sat_bind]
  refine (sat_trapping hacpi (sat_acpiInit n ht rfl rfl)).post fun _ t ht => ?_
  have hsettled : Settled L table ram t := .inl ht
  refine hsettled.bind (orderly_println rfl) fun _ t ht => ?_
  refine ht.bind orderly_ps2ControllerExists fun found t ht => ?_
  rw [Prog.sat_ite]
  refine ⟨fun _ => ?_, fun _ => ?_⟩
  · rw [Prog.sat_bind]
    exact (Ps2.settles_ps2Init htrap n ht).post fun _ t ht => ht.orderly (orderly_println rfl)
  · exact ht.bind (orderly_println rfl) fun _ t ht => ht.orderly (orderly_println rfl)

/-- What is so over the machine that only logs the interrupt. -/
theorem contained_main (b : Bus ε) (L : Layout) (n : ℕ) (e : ε) (table : Idt) (ram : Mem) :
    ∀ t ∈ (main L n).states (machine b) (.boot e table ram), Contained L table ram t := by
  have hsat : Prog.Sat (trapping b (.ret ())) (Contained L table ram)
      (fun _ t => Settled L table ram t) (main L n) (.boot e table ram) :=
    sat_main L keepsStage_ret n e
  rw [trapping_ret] at hsat
  exact hsat.states

/-- And over the one that runs the stub. -/
theorem contained_main_stub (b : Bus ε) (L : Layout) (n : ℕ) (e : ε) (ram : Mem) {eip : Dword}
    (h : table.NullAt eip) :
    ∀ t ∈ (main L n).states (trapping b (genericStub eip)) (.boot e table ram),
      Contained L table ram t :=
  (sat_main L (keepsStage_genericStub h) n e).states

end Run

/-! ### Over whole runs -/

section Results

variable (b : Bus ε) (L : Layout) (n : ℕ) (e : ε) (table : Idt) (ram : Mem)

/-- **The reach of the boot sequence.**  At every point of the run of `main`, with the stub
that its interrupt runs: the ports written are those of the devices and, once at most, the
one that the firmware's table names, with its byte; the ports read are those of the devices
and the one that the table names; every print has its arguments; and `int 0x21` has been
raised at most once and no handler invoked. -/
theorem main_confined {eip : Dword} (hnull : table.NullAt eip) :
    ∀ t ∈ (main L n).states (trapping b (genericStub eip)) (.boot e table ram),
      (∀ x ∈ t.log, Allowed ram x) ∧ t.log.countP isForeign ≤ 1 ∧ t.log.countP isInt ≤ 1 := by
  intro t ht
  have h := contained_main_stub b L n e ram hnull t ht
  exact ⟨h.allowed, h.foreign, h.idt.le_one⟩

/-- **The gates of the boot sequence.**  At every point of the run of `main` each vector
has the gate and the handler that the firmware left, but for the exceptions and for
the keyboard; and when `int 0x21` has been raised, its gate and its handler are those
of the keyboard driver. -/
theorem main_gates : ∀ t ∈ (main L n).states (machine b) (.boot e table ram),
    (∀ v : Byte, t.kernel.idt.gate v = table.gate v ∨
      (∃ h : v.toNat < 32, t.kernel.idt.gate v = externalGate (L.addr (initialIsr ⟨v.toNat, h⟩))) ∨
      v = 0x21 ∧ t.kernel.idt.gate v = externalGate (L.addr .genericIsrStub)) ∧
    (∀ v : Byte, t.kernel.idt.handlers v = table.handlers v ∨
      v = 0x21 ∧ t.kernel.idt.handlers v = L.addr .ps2KbdIrqHandler) ∧
    ∀ v : Byte, .int v ∈ t.log → v = 0x21 ∧
      t.kernel.idt.gate v = externalGate (L.addr .genericIsrStub) ∧
      t.kernel.idt.handlers v = L.addr .ps2KbdIrqHandler := by
  intro t ht
  have h := contained_main b L n e table ram t ht
  refine ⟨h.idt.gate, h.idt.handler, fun v hv => ?_⟩
  obtain rfl : v = 0x21 := h.allowed _ hv
  rw [h.idt.eq_drivenIdt (List.countP_pos_iff.2 ⟨_, hv, rfl⟩)]
  refine ⟨rfl, gate_idtInstallIrqHandler L .., ?_⟩
  rw [handlers_drivenIdt]
  exact Function.update_self ..

/-- Nothing clears the interrupt flag. -/
theorem iflag_of_run {trap : Kern Unit} {p : Kern α} {w t : World ε} {a : α} (hw : w.iflag = true)
    (h : p.run (trapping b trap) w = (some a, t)) : t.iflag = true := by
  have hstep : ∀ (o : Op) (s : World ε), s.iflag = true → (machine b o s).2.iflag = true := by
    intro o s
    cases o with
    | sti => exact fun _ => rfl
    | _ => exact id
  exact (Prog.sat_of_always (R := fun s t : World ε => s.iflag = true → t.iflag = true)
    (fun _ => id) (fun _ _ _ h h' => h' ∘ h)
    (fun o s _ => trapping_keeps (R := fun s t : World ε => s.iflag = true → t.iflag = true)
      (fun _ => id) (fun _ _ _ h h' => h' ∘ h) hstep trap o s) (Prog.always_true p) w).run h hw

/-- **What `main` leaves behind.**  Whatever the devices have answered: when `main`
returns, interrupts are enabled, the vectors of the interrupt controllers start at `0x20`
and `0x28`, the ACPI statics are those of the tables in memory, and either no keyboard
driver has been started and no interrupt raised, or one has, on vector `0x21` and with its
handler in place, and its interrupt has been raised once. -/
theorem main_returns {eip : Dword} (hnull : table.NullAt eip) {t : World ε}
    (h : (main L n).run (trapping b (genericStub eip)) (.boot e table ram) = (some (), t)) :
    t.iflag = true ∧ ∃ p,
      t.kernel = { startedKernel L table ram with ps2 := p } ∧ t.log.countP isInt = 0 ∨
      ∃ port, t.kernel = { drivenKernel L table ram port with ps2 := p } ∧
        t.log.countP isInt = 1 := by
  have hsettled := (sat_main L (keepsStage_genericStub hnull) n e).run h
  have hiflag : t.iflag = true := by
    unfold main at h
    obtain ⟨_, u, -, h⟩ := (Prog.run_bind_eq_some _).1 h
    obtain ⟨_, v, -, h⟩ := (Prog.run_bind_eq_some _).1 h
    obtain ⟨_, w, hidt, h⟩ := (Prog.run_bind_eq_some _).1 h
    have hsti : w.iflag = true := (congrArg (fun r => r.2.iflag) hidt).symm
    exact iflag_of_run b hsti h
  have hcount : ∀ (k : Kernel) (i : ℕ), Stage ram k i 1 t → t.log.countP isInt ≤ i := by
    rintro k i ⟨-, -, l, hl, -, hints, -⟩
    rw [hl, List.countP_append, countP_greetLog.1, Nat.zero_add]
    exact hints
  rcases hsettled with hs | ⟨port, hs, hraised⟩
  · obtain ⟨p, hp⟩ := hs.kernel
    exact ⟨hiflag, p, .inl ⟨hp, Nat.le_zero.1 (hcount _ 0 hs)⟩⟩
  · obtain ⟨p, hp⟩ := hs.kernel
    have hpos : 0 < t.log.countP isInt := List.countP_pos_iff.2 ⟨_, hraised, rfl⟩
    exact ⟨hiflag, p, .inr ⟨port, hp, le_antisymm (hcount _ 1 hs) hpos⟩⟩

end Results

/-- Devices that answer 1 to everything. -/
def Bus.ones : Bus Unit := ⟨fun _ _ => (1, ()), fun _ _ => (1, ()), fun _ _ _ => ()⟩

/-- `NULL` stands behind the table. -/
theorem nullAt_emptyIdt : emptyIdt.NullAt 0x2000 := ⟨by decide, rfl⟩

/-- They fail the self-test, and `main` returns. -/
theorem run_main_ones : ∃ t, (main .sample 1).run (trapping .ones (genericStub 0x2000))
    (.boot () emptyIdt Acpi.brokenRsdt) = (some (), t) := by
  have hreturns : ((main .sample 1).run (trapping .ones (genericStub 0x2000))
      (.boot () emptyIdt Acpi.brokenRsdt)).1.isSome = true := by decide +kernel
  obtain ⟨⟨⟩, hresult⟩ := Option.isSome_iff_exists.1 hreturns
  have hpair : ∀ r : Option Unit × World Unit, r.1 = some () → r = (some (), r.2) :=
    fun _ h => Prod.ext h rfl
  exact ⟨_, hpair _ hresult⟩

/-- No keyboard driver is started. -/
theorem main_returns_ones : ∃ t, (main .sample 1).run (trapping .ones (genericStub 0x2000))
    (.boot () emptyIdt Acpi.brokenRsdt) = (some (), t) ∧ t.iflag = true := by
  obtain ⟨t, hrun⟩ := run_main_ones
  exact ⟨t, hrun, (main_returns .ones .sample 1 () emptyIdt _ nullAt_emptyIdt hrun).1⟩

/-- The greeting over no devices: the cursor is off. -/
theorem main_confined_greeting :
    ∃ t ∈ (main .sample 0).states (trapping .silent (genericStub 0x2000))
        (.boot () emptyIdt fun _ => 0),
      t.log.length = 3 ∧ t.log.countP isForeign ≤ 1 :=
  ⟨_, List.mem_of_getElem? (i := 2) rfl, rfl, (main_confined .silent .sample 0 () emptyIdt _
    nullAt_emptyIdt _ (List.mem_of_getElem? (i := 2) rfl)).2.1⟩

/-- No handler has been installed for the timer. -/
theorem main_gates_greeting :
    ∃ t ∈ (main .sample 0).states (machine .silent) (.boot () emptyIdt fun _ => 0),
      t.log.length = 3 ∧ (t.kernel.idt.handlers 0x20 = 0 ∨
        (0x20 : Byte) = 0x21 ∧ t.kernel.idt.handlers 0x20 = Layout.sample.addr .ps2KbdIrqHandler) :=
  ⟨_, List.mem_of_getElem? (i := 2) rfl, rfl, (main_gates .silent .sample 0 () emptyIdt _ _
    (List.mem_of_getElem? (i := 2) rfl)).2.1 0x20⟩

end DrewOS
