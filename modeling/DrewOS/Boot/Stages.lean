/-
# Points of the boot sequence

What `main` may do (`Allowed`), and what can be said of a point of its run behind
`mainGreet`: which statics it has assigned, those of `ps2.c` apart, and what it has
done so far (`Stage`).  Orderly code keeps a stage (`sat_orderly`), and so does the
search for the ACPI tables but for what it assigns.

The one thing that the source does not bound is the command of `acpi_enable`: its port
and its byte come out of the table that the firmware left.
-/

import DrewOS.Boot.Orderly

namespace DrewOS

open ByteMem Effect

variable {ε α β : Type}

/-! ### What is allowed -/

/-- The statics of the ACPI code once its tables have been searched for. -/
def acpiTables (mem : Mem) : AcpiStatics := Acpi.initialised mem ⟨0, 0, 0, 0, 0, 0⟩

/-- The port and the byte with which `acpi_enable` asks the firmware to hand over. -/
def enablePort (mem : Mem) : Word :=
  (mem.load32 ((acpiTables mem).fadt + Acpi.SMI_COMMAND_PORT)).setWidth 16

def enableByte (mem : Mem) : Byte := mem ((acpiTables mem).fadt + Acpi.ACPI_ENABLE)

/-- The port that `acpi_enable` polls. -/
def controlPort (mem : Mem) : Word :=
  (mem.load32 ((acpiTables mem).fadt + Acpi.PM1A_CONTROL_BLOCK)).setWidth 16

/-- The ports that are written: those of the drivers and those of the cursor. -/
def writtenPorts : List Word := [REG_CTRL, REG_DATA] ++ driverPorts

/-- What `main` does at all. -/
def Allowed (mem : Mem) : Event → Prop
  | .inb port _ => port ∈ readPorts
  | .inw port _ => port = controlPort mem
  | .outb port d => port ∈ writtenPorts ∨ port = enablePort mem ∧ d = enableByte mem
  | .print m => m.output.isSome = true
  | .int v => v = 0x21
  | .invoke _ => False
  | _ => True

/-- A write to a port of no device that is driven. -/
def isForeign : Event → Bool
  | .outb port _ => decide (port ∉ writtenPorts)
  | _ => false

/-- A software interrupt. -/
def isInt : Event → Bool
  | .int _ => true
  | _ => false

/-- The messages of `mainGreet`. -/
def greetings : List Message :=
  [⟨"Kernel has been loaded successfully.", .white, .black, [], true⟩,
    ⟨"Welcome to drewOS!", .green, .black, [], true⟩, ⟨"", .white, .black, [], true⟩] ++
  colours.map (fun bg => ⟨"     ", bg, bg, [], false⟩) ++ [⟨"\n", .white, .black, [], true⟩]

/-- What `mainGreet` does. -/
def greetLog : List Event :=
  [.clrscr, .outb REG_CTRL 0x0a, .outb REG_DATA 0x20] ++ greetings.map .print

/-- What is done after it: every print is a line, nothing is cleared, and the cursor is
left alone. -/
def Later (mem : Mem) : Event → Prop
  | .print m => isLine m.text m.args = true
  | .outb port d => port ∈ driverPorts ∨ port = enablePort mem ∧ d = enableByte mem
  | .clrscr => False
  | _ => True

/-- The greeting is allowed, whatever the tables are. -/
theorem allowed_greetLog (mem : Mem) : ∀ e ∈ greetLog, Allowed mem e := by
  have hprint : ∀ m ∈ greetings, m.output.isSome = true := by decide
  intro e he
  rcases List.mem_append.1 he with he | he
  · simp only [List.mem_cons, List.not_mem_nil, or_false] at he
    rcases he with rfl | rfl | rfl
    · trivial
    · exact .inl (by decide)
    · exact .inl (by decide)
  · obtain ⟨m, hm, rfl⟩ := List.mem_map.1 he
    exact hprint m hm

/-- What may be done behind the greeting, and is neither an interrupt nor foreign. -/
structure Plain (mem : Mem) (e : Event) : Prop where
  allowed : Allowed mem e
  later : Later mem e
  foreign : isForeign e = false
  int : isInt e = false

/-- An ordinary event is a plain one, whatever the tables are. -/
theorem Ordinary.plain {e : Event} (h : Ordinary e) (mem : Mem) : Plain mem e := by
  cases e with
  | outb port d =>
    have hport : port ∈ writtenPorts := List.mem_append_right _ h
    exact ⟨.inl hport, .inl h, decide_eq_false (not_not.2 hport), rfl⟩
  | print m =>
    obtain ⟨text, htext, -⟩ := Message.line_of_isLine h
    exact ⟨Option.isSome_of_eq_some htext, h, rfl, rfl⟩
  | inb port r => exact ⟨h, trivial, rfl, rfl⟩
  | load a => exact ⟨trivial, trivial, rfl, rfl⟩
  | enter f => exact ⟨trivial, trivial, rfl, rfl⟩
  | leave f r => exact ⟨trivial, trivial, rfl, rfl⟩
  | _ => exact absurd h id

/-! ### Stages -/

/-- A point of the run behind `mainGreet`: the statics are `k` but for those of `ps2.c`,
and there have been at most `ints` interrupts and `foreign` foreign writes. -/
structure Stage (ram : Mem) (k : Kernel) (ints foreign : ℕ) (w : World ε) : Prop where
  mem : w.mem = ram
  kernel : OnlyPs2 k w.kernel
  log : ∃ l, w.log = greetLog ++ l ∧ (∀ e ∈ l, Allowed ram e ∧ Later ram e) ∧
    l.countP isInt ≤ ints ∧ l.countP isForeign ≤ foreign

section Stages

variable {ram : Mem} {k k' : Kernel} {ints foreign : ℕ} {w t : World ε} {b : Bus ε}

/-- More has been done. -/
theorem Stage.append (h : Stage ram k ints foreign w) (hmem : t.mem = w.mem)
    (hkernel : OnlyPs2 k' t.kernel) {l : List Event} (hlog : t.log = w.log ++ l)
    (hl : ∀ e ∈ l, Allowed ram e ∧ Later ram e) {ints' foreign' : ℕ}
    (hints : ints + l.countP isInt ≤ ints') (hforeign : foreign + l.countP isForeign ≤ foreign') :
    Stage ram k' ints' foreign' t := by
  obtain ⟨l₀, hl₀, hall, hints₀, hforeign₀⟩ := h.log
  refine ⟨hmem.trans h.mem, hkernel, l₀ ++ l, ?_, fun e he => ?_, ?_, ?_⟩
  · rw [hlog, hl₀, List.append_assoc]
  · exact (List.mem_append.1 he).elim (hall e) (hl e)
  · rw [List.countP_append]
    omega
  · rw [List.countP_append]
    omega

/-- What is plain does not count. -/
theorem Stage.plain (h : Stage ram k ints foreign w) (hmem : t.mem = w.mem)
    (hkernel : OnlyPs2 k' t.kernel) {l : List Event} (hlog : t.log = w.log ++ l)
    (hl : ∀ e ∈ l, Plain ram e) : Stage ram k' ints foreign t := by
  have hzero : ∀ p : Event → Bool, (∀ e ∈ l, p e = false) → l.countP p = 0 := fun p hp =>
    List.countP_eq_zero.2 fun e he => by simp [hp e he]
  have hints := hzero isInt fun e he => (hl e he).int
  have hforeign := hzero isForeign fun e he => (hl e he).foreign
  exact h.append hmem hkernel hlog (fun e he => ⟨(hl e he).allowed, (hl e he).later⟩) (by omega)
    (by omega)

/-- The code does not write to memory. -/
theorem sat_mem (b : Bus ε) (p : Kern α) (w : World ε) :
    Prog.Sat (machine b) (fun t => t.mem = w.mem) (fun _ t => t.mem = w.mem) p w := by
  refine Prog.sat_of_always (R := fun s t : World ε => t.mem = s.mem) (fun _ => rfl)
    (fun _ _ _ h h' => h'.trans h) (fun o s _ => ?_) (Prog.always_true p) w
  cases o <;> rfl

/-- **Orderly code keeps the stage.** -/
theorem sat_orderly {p : Kern α} (hp : Orderly p) (h : Stage ram k ints foreign w) :
    Prog.Sat (machine b) (Stage ram k ints foreign) (fun _ t => Stage ram k ints foreign t)
      p w := by
  have hstage : ∀ t, Extends Ordinary OnlyPs2 w t ∧ t.mem = w.mem → Stage ram k ints foreign t := by
    rintro t ⟨hext, hmem⟩
    obtain ⟨l, hl, hordinary⟩ := hext.log
    exact h.plain hmem (OnlyPs2.trans _ _ _ h.kernel hext.kernel) hl fun e he =>
      (hordinary e he).plain ram
  exact ((sat_stays OnlyPs2.refl OnlyPs2.trans b hp w).and (sat_mem b p w)).mono hstage
    fun _ => hstage

/-! ### The search for the tables -/

/-- No statics but those of the ACPI code are assigned. -/
def OnlyAcpi (k k' : Kernel) : Prop := ∃ a, k' = { k with acpi := a }

theorem OnlyAcpi.refl (k : Kernel) : OnlyAcpi k k := ⟨k.acpi, rfl⟩

theorem OnlyAcpi.trans (k k' k'' : Kernel) :
    OnlyAcpi k k' → OnlyAcpi k' k'' → OnlyAcpi k k'' := by
  rintro ⟨a, rfl⟩ ⟨a', rfl⟩
  exact ⟨a', rfl⟩

/-- The log at a point of the run is a prefix of the log at its end. -/
theorem prefix_of_mem_states (b : Bus ε) (p : Kern α) (w : World ε) :
    ∀ u ∈ p.states (machine b) w, u.log <+: (p.run (machine b) w).2.log := by
  induction p generalizing w with
  | ret a => exact fun _ hu => absurd hu List.not_mem_nil
  | cut => exact fun _ hu => absurd hu List.not_mem_nil
  | ask o K ih =>
    intro u hu
    rcases List.mem_cons.1 hu with rfl | hu
    · rcases Prog.run_mem_states (machine b) (K (machine b o w).1) (machine b o w).2 with h | h
      · rw [Prog.run_ask, h]
      · exact (sat_grows b _ _).states _ h
    · exact ih _ _ u hu

/-- Code that adds ordinary events has added nothing else at any point of its run. -/
theorem sat_emits {p : Kern α} (h : Emits b p)
    (hstays : Stays (fun _ => True) OnlyAcpi p) (w : World ε) :
    Prog.Sat (machine b) (Extends Ordinary OnlyAcpi w) (fun _ t => Extends Ordinary OnlyAcpi w t)
      p w := by
  have hkernel := sat_stays OnlyAcpi.refl OnlyAcpi.trans b hstays w
  obtain ⟨l, hl, hordinary⟩ := h w
  refine (Prog.sat_iff p w).2 ⟨fun u hu => ⟨?_, (hkernel.states u hu).kernel⟩, fun a t hrun => ?_⟩
  · obtain ⟨l', hl', -⟩ := (hkernel.states u hu).log
    have hprefix := prefix_of_mem_states b p w u hu
    rw [hl, hl'] at hprefix
    obtain ⟨l'', rfl⟩ := (List.prefix_append_right_inj _).1 hprefix
    exact ⟨l', hl', fun e he => hordinary e (List.mem_append_left _ he)⟩
  · rw [hrun] at hl
    exact ⟨⟨l, hl, hordinary⟩, (hkernel.run hrun).kernel⟩

/-- `init_rsdp` assigns the ACPI statics only. -/
theorem stays_tables : Stays (fun _ => True) OnlyAcpi Acpi.initRsdp :=
  Acpi.stays_initRsdp ⟨fun _ => trivial, fun _ => trivial⟩ fun _ a => ⟨a, rfl⟩

/-- `init_rsdp()`. -/
theorem sat_initRsdp (h : Stage ram k ints foreign w) :
    Prog.Sat (machine b) (fun t => ∃ a, Stage ram { k with acpi := a } ints foreign t)
      (fun _ t => Stage ram { k with acpi := Acpi.initialised ram k.acpi } ints foreign t)
      Acpi.initRsdp w := by
  obtain ⟨p, hp⟩ := h.kernel
  have hsat := (sat_emits (b := b) Acpi.emits_initRsdp stays_tables w).and (sat_mem b _ w)
  refine (Prog.sat_iff _ w).2 ⟨fun u hu => ?_, fun a t hrun => ?_⟩
  · obtain ⟨⟨⟨l, hl, hordinary⟩, a, ha⟩, hmem⟩ := hsat.states u hu
    refine ⟨a, h.plain hmem ⟨p, ?_⟩ hl fun e he => (hordinary e he).plain ram⟩
    rw [ha, hp]
  · obtain ⟨⟨⟨l, hl, hordinary⟩, -⟩, hmem⟩ := hsat.run hrun
    obtain ⟨t', hrun', hassigned⟩ := Acpi.run_initRsdp (b := b) w
    obtain ⟨-, rfl⟩ := Prod.mk.inj (hrun'.symm.trans hrun)
    refine h.plain hmem ⟨p, ?_⟩ hl fun e he => (hordinary e he).plain ram
    rw [hassigned.kernel, hp, h.mem]

/-! ### Single operations -/

/-- One more event. -/
theorem Stage.say (h : Stage ram k ints foreign w) {e : Event} (he : Plain ram e) :
    Stage ram k ints foreign (w.say e) :=
  h.plain (t := w.say e) (l := [e]) rfl h.kernel rfl fun _ hmem => List.mem_singleton.1 hmem ▸ he

/-- A mark in the log keeps the stage. -/
theorem Stage.mark (h : Stage ram k ints foreign w) {e : Event} (he : Ordinary e) :
    Stage ram k ints foreign (w.say e) :=
  h.say (he.plain ram)

/-- An assignment to statics other than those of `ps2.c`. -/
theorem Stage.assign (h : Stage ram k ints foreign w) (f : Kernel → Kernel)
    (hf : ∀ p, f { k with ps2 := p } = { f k with ps2 := p }) :
    Stage ram (f k) ints foreign { w with kernel := f w.kernel } := by
  obtain ⟨p, hp⟩ := h.kernel
  exact ⟨h.mem, ⟨p, (congrArg f hp).trans (hf p)⟩, h.log⟩

/-- At a stage, the ACPI statics are those of its kernel. -/
theorem Stage.acpi (h : Stage ram k ints foreign w) : w.kernel.acpi = k.acpi := by
  obtain ⟨p, hp⟩ := h.kernel
  rw [hp]

/-- At a stage, the keyboard's statics are those of its kernel. -/
theorem Stage.kbd (h : Stage ram k ints foreign w) : w.kernel.kbd = k.kbd := by
  obtain ⟨p, hp⟩ := h.kernel
  rw [hp]

/-- `ps2_controller_exists` is orderly. -/
theorem orderly_ps2ControllerExists : Orderly Acpi.ps2ControllerExists := by
  have hload : ∀ a, Orderly (loadByte a) := fun _ => stays_loadByte trivial
  refine stays_getKernel.bind fun k => stays_ite _ (stays_pure _) ?_
  refine (hload _).bind fun revision => stays_ite _ (stays_pure _) ?_
  exact ((hload _).bind fun _ => (hload _).bind fun _ => stays_pure _).bind fun _ => stays_pure _

end Stages

/-! ### The command of `acpi_enable` -/

/-- What `acpi_enable` does. -/
def Enabling (mem : Mem) : Event → Prop
  | .enter f => f = .acpiEnable
  | .leave f _ => f = .acpiEnable
  | .load _ => True
  | .outb port d => port = enablePort mem ∧ d = enableByte mem
  | .inw port _ => port = controlPort mem
  | _ => False

/-- A write to a port. -/
def isOut : Event → Bool
  | .outb _ _ => true
  | _ => false

/-- From `s` to `t`, `acpi_enable` has gone on, and has written at most `outs` bytes. -/
structure Enabled (ram : Mem) (outs : ℕ) (s t : World ε) : Prop where
  mem : t.mem = s.mem
  kernel : t.kernel = s.kernel
  log : ∃ l, t.log = s.log ++ l ∧ (∀ e ∈ l, Enabling ram e) ∧ l.countP isOut ≤ outs

section Enable

variable {ram : Mem} {k : Kernel} {ints outs : ℕ} {w t : World ε} {b : Bus ε}

/-- What `acpi_enable` does next comes behind what it has done. -/
theorem Enabled.append {u : World ε} (h : Enabled ram outs w t) (hmem : u.mem = t.mem)
    (hkernel : u.kernel = t.kernel) {l : List Event} (hlog : u.log = t.log ++ l)
    (hl : ∀ e ∈ l, Enabling ram e) {outs' : ℕ} (houts : outs + l.countP isOut ≤ outs') :
    Enabled ram outs' w u := by
  obtain ⟨l₀, hl₀, hall, houts₀⟩ := h.log
  refine ⟨hmem.trans h.mem, hkernel.trans h.kernel, l₀ ++ l, ?_, fun e he => ?_, ?_⟩
  · rw [hlog, hl₀, List.append_assoc]
  · exact (List.mem_append.1 he).elim (hall e) (hl e)
  · rw [List.countP_append]
    omega

/-- The same for one event that leaves the machine as it is. -/
theorem Enabled.say (h : Enabled ram outs w t) {e : Event} (he : Enabling ram e) {outs' : ℕ}
    (houts : outs + [e].countP isOut ≤ outs') : Enabled ram outs' w (t.say e) :=
  h.append (u := t.say e) (l := [e]) rfl rfl rfl (fun _ hmem => List.mem_singleton.1 hmem ▸ he)
    houts

/-- Fields of the table are read. -/
theorem Enabled.reads {p : Kern α} (h : Enabled ram outs w t)
    (hp : Stays (fun e => ∃ a, e = .load a) (fun k k' => k' = k) p) {v : α}
    (hv : Acpi.Yields b p t v) :
    Prog.Sat (machine b) (Enabled ram outs w) (fun a u => a = v ∧ Enabled ram outs w u) p t := by
  have hext := sat_stays_same b hp t
  have hread : ∀ u : World ε, Extends (fun e => ∃ a, e = .load a) (fun k k' => k' = k) t u ∧
      u.mem = t.mem → Enabled ram outs w u := by
    rintro u ⟨⟨⟨l, hl, hload⟩, hkernel⟩, hmem⟩
    have hnone : l.countP isOut = 0 := List.countP_eq_zero.2 fun e he => by
      obtain ⟨a, rfl⟩ := hload e he
      exact Bool.false_ne_true
    refine h.append hmem hkernel hl (fun e he => ?_) (by omega)
    obtain ⟨a, rfl⟩ := hload e he
    trivial
  have hsat := (hext.and (sat_mem b p t)).mono hread fun _ => hread
  obtain ⟨u, hrun, -⟩ := hv
  refine (Prog.sat_iff p t).2 ⟨hsat.states, fun a u' hrun' => ⟨?_, hsat.run hrun'⟩⟩
  exact (Option.some.inj (Prod.mk.inj (hrun.symm.trans hrun')).1).symm

/-- Reading a field of a table loads it. -/
theorem stays_loadField (a : Addr) :
    Stays (fun e => ∃ a, e = .load a) (fun k k' => k' = k) (loadDword a) :=
  (stays_loadByte ⟨_, rfl⟩).bind fun _ => (stays_loadByte ⟨_, rfl⟩).bind fun _ =>
    (stays_loadByte ⟨_, rfl⟩).bind fun _ => (stays_loadByte ⟨_, rfl⟩).bind fun _ => stays_pure _

/-- The wait reads the port that the table names. -/
theorem sat_enableWait (n : ℕ) (hram : w.mem = ram) (h : Enabled ram outs w t) :
    Prog.Sat (machine b) (Enabled ram outs w) (fun _ u => Enabled ram outs w u)
      (Acpi.enableWait (acpiTables ram).fadt n) t := by
  induction n generalizing t with
  | zero => trivial
  | succ n ih =>
    unfold Acpi.enableWait
    rw [Prog.sat_bind]
    refine (h.reads (stays_loadField _) (Acpi.yields_loadDword _ t)).post ?_
    rintro port u ⟨rfl, hu⟩
    -- the status is read, and decides whether to go on
    rw [Prog.sat_bind, h.mem, hram]
    have hlog : (machine b (.readWord (controlPort ram)) u).2.log =
        u.log ++ [.inw (controlPort ram) (b.inw (controlPort ram) u.bus).1] := rfl
    have hread : Enabled ram outs w (machine b (.readWord (controlPort ram)) u).2 :=
      hu.append (u := (machine b (.readWord (controlPort ram)) u).2) rfl rfl hlog
        (fun _ hmem => List.mem_singleton.1 hmem ▸ rfl) le_rfl
    refine ⟨hread, ?_⟩
    show Prog.Sat _ _ _ (if _ then _ else _) _
    split_ifs
    · exact ih hread
    · exact hread

/-- **`acpi_enable` writes one byte**: the one that the table says, where it says. -/
theorem sat_acpiEnable (n : ℕ) (hram : w.mem = ram) (hacpi : w.kernel.acpi = acpiTables ram) :
    Prog.Sat (machine b) (Enabled ram 1 w) (fun _ t => Enabled ram 1 w t) (Acpi.acpiEnable n)
      w := by
  have hmore : ∀ t : World ε, Enabled ram 0 w t → Enabled ram 1 w t := fun t ht =>
    ⟨ht.mem, ht.kernel, ht.log.imp fun _ hl => ⟨hl.1, hl.2.1, hl.2.2.trans (Nat.zero_le 1)⟩⟩
  have hstart : Enabled ram 0 w w :=
    ⟨rfl, rfl, [], (List.append_nil _).symm, fun _ he => absurd he List.not_mem_nil, le_rfl⟩
  have hentered : Enabled ram 0 w (w.say (.enter .acpiEnable)) :=
    hstart.say (e := .enter .acpiEnable) rfl le_rfl
  unfold Acpi.acpiEnable
  rw [sat_procedure]
  refine ⟨hmore _ hentered, ?_⟩
  rw [sat_getKernel]
  refine ⟨hmore _ hentered, ?_⟩
  rw [World.say_kernel, hacpi, Prog.sat_bind]
  refine (hentered.reads (stays_loadField _) (Acpi.yields_loadDword _ _)).mono hmore ?_
  rintro port t ⟨rfl, ht⟩
  rw [Prog.sat_bind]
  refine (ht.reads (stays_loadByte ⟨_, rfl⟩) (Acpi.yields_loadByte _ t)).mono hmore ?_
  rintro data u ⟨rfl, hu⟩
  have hwrite : Enabled ram 1 w (u.afterOutb b (enablePort ram) (enableByte ram)) :=
    hu.append (u := u.afterOutb b (enablePort ram) (enableByte ram)) rfl rfl
      (afterOutb_log (b := b) (w := u) _ _) (fun _ he => List.mem_singleton.1 he ▸ ⟨rfl, rfl⟩)
      le_rfl
  rw [Prog.sat_bind, hentered.mem, ht.mem, hram]
  refine ⟨hwrite, (sat_enableWait n hram hwrite).post fun _ v hv => ?_⟩
  have hleft : Enabled ram 1 w (v.say (.leave .acpiEnable none)) :=
    hv.say (e := .leave .acpiEnable none) rfl le_rfl
  exact ⟨hleft, hleft⟩

/-- It takes a stage to one with a foreign write more. -/
theorem Stage.enabled (h : Stage ram k ints 0 w) (ht : Enabled ram 1 w t) :
    Stage ram k ints 1 t := by
  obtain ⟨l, hl, hall, houts⟩ := ht.log
  have hnone : l.countP isInt = 0 := List.countP_eq_zero.2 fun e he => by
    have := hall e he
    cases e with
    | int v => exact absurd this id
    | _ => exact Bool.false_ne_true
  have hforeign : l.countP isForeign ≤ l.countP isOut :=
    List.countP_mono_left fun e _ hforeign => by
      cases e with
      | outb port d => rfl
      | _ => exact absurd hforeign Bool.false_ne_true
  refine h.append ht.mem (ht.kernel ▸ h.kernel) hl (fun e he => ?_) (by omega) (by omega)
  have henabling := hall e he
  cases e with
  | outb port d => exact ⟨.inr henabling, .inr henabling⟩
  | inw port r => exact ⟨henabling, trivial⟩
  | load a => exact ⟨trivial, trivial⟩
  | enter f => exact ⟨trivial, trivial⟩
  | leave f r => exact ⟨trivial, trivial⟩
  | _ => exact absurd henabling id

end Enable

end DrewOS
