/-
# When the boot sequence comes to its end

`main` waits for its devices in three places without a bound: `acpi_enable` polls the
control register until the firmware has handed over, and the two functions of the
PS/2 drivers that call themselves go on as long as the device's answers say so.  All
other waits are bounded.  So `main` returns exactly where none of the three goes on
for ever (`main_returns_iff`), and what `acpi_enable` waits for can be read off the
table of the firmware.

This is about runs in which no hardware interrupt is taken; one that has no gate would end
in an exception, from which there is no way back.  The interrupt that `main` raises itself
runs its stub, which returns where the word at `handlers[EIP]` is `NULL`.
-/

import DrewOS.Boot.Confined
import DrewOS.Ps2.Termination

namespace DrewOS

open ByteMem Effect

variable {ε : Type}

/-! ### The wait of `acpi_enable` -/

namespace Acpi

/-- The devices when the port has been read `k` times as a word. -/
def readTimes (b : Bus ε) (port : Word) (k : ℕ) (e : ε) : ε := (fun e => (b.inw port e).2)^[k] e

/-- The devices after the command of `acpi_enable`. -/
def commanded (b : Bus ε) (u : World ε) : ε :=
  b.outb ((u.mem.load32 (u.kernel.acpi.fadt + SMI_COMMAND_PORT)).setWidth 16)
    (u.mem (u.kernel.acpi.fadt + ACPI_ENABLE)) u.bus

/-- The port that the wait reads. -/
def polled (u : World ε) (fadt : Addr) : Word :=
  (u.mem.load32 (fadt + PM1A_CONTROL_BLOCK)).setWidth 16

/-- From the call `acpi_enable()` in `u` on, the control register never shows that the
firmware has handed over. -/
def WaitsForever (b : Bus ε) (u : World ε) : Prop :=
  ∀ k, (b.inw (polled u u.kernel.acpi.fadt)
    (readTimes b (polled u u.kernel.acpi.fadt) k (commanded b u))).1 &&& 1 = 0

variable {b : Bus ε}

/-- One round of the wait. -/
theorem run_enableWait (fadt : Addr) (w : World ε) :
    ∃ t, t.bus = (b.inw (polled w fadt) w.bus).2 ∧ polled t fadt = polled w fadt ∧
      ∀ n, (enableWait fadt (n + 1)).run (machine b) w =
        if (b.inw (polled w fadt) w.bus).1 &&& 1 = 0 then (enableWait fadt n).run (machine b) t
        else (some (), t) := by
  obtain ⟨u, hload, hmem, -, hbus⟩ := run_loadDword b (fadt + PM1A_CONTROL_BLOCK) w
  have hread : (readWord (polled w fadt)).run (machine b) u =
      (some (b.inw (polled w fadt) u.bus).1, (machine b (.readWord (polled w fadt)) u).2) := rfl
  refine ⟨(machine b (.readWord (polled w fadt)) u).2, ?_, ?_, fun n => ?_⟩
  · rw [← hbus]
    rfl
  · show polled u fadt = _
    rw [polled, hmem, polled]
  · rw [enableWait, Prog.run_bind_of_some _ hload]
    refine (Prog.run_bind_of_some _ hread).trans ?_
    rw [hbus]
    split_ifs <;> rfl

/-- **The wait ends exactly if the register shows bit 0 at some read.** -/
theorem enableWait_returns_iff (fadt : Addr) (w : World ε) :
    (∃ n t, (enableWait fadt n).run (machine b) w = (some (), t)) ↔
      ∃ k, (b.inw (polled w fadt) (readTimes b (polled w fadt) k w.bus)).1 &&& 1 ≠ 0 := by
  constructor
  · rintro ⟨n, t, hn⟩
    induction n generalizing w with
    | zero => cases hn
    | succ n ih =>
      obtain ⟨u, hbus, hport, hrun⟩ := run_enableWait (b := b) fadt w
      by_cases hbit : (b.inw (polled w fadt) w.bus).1 &&& 1 = 0
      · rw [hrun, if_pos hbit] at hn
        obtain ⟨k, hk⟩ := ih u hn
        rw [hport, hbus] at hk
        exact ⟨k + 1, hk⟩
      · exact ⟨0, hbit⟩
  · rintro ⟨k, hk⟩
    induction k generalizing w with
    | zero =>
      obtain ⟨u, -, -, hrun⟩ := run_enableWait (b := b) fadt w
      exact ⟨1, u, (hrun 0).trans (if_neg hk)⟩
    | succ k ih =>
      obtain ⟨u, hbus, hport, hrun⟩ := run_enableWait (b := b) fadt w
      by_cases hbit : (b.inw (polled w fadt) w.bus).1 &&& 1 = 0
      · obtain ⟨n, t, hn⟩ := ih u (by rw [hport, hbus]; exact hk)
        exact ⟨n + 1, t, by rw [hrun, if_pos hbit, hn]⟩
      · exact ⟨1, u, (hrun 0).trans (if_neg hbit)⟩

/-- More fuel lets the wait of `acpi_enable` run further. -/
theorem growing_enableWait (fadt : Addr) : Growing fun n => enableWait fadt n := by
  intro n
  induction n with
  | zero => exact .cut _
  | succ n ih =>
    refine (Below.refl _).bind fun port => (Below.refl _).bind fun control => ?_
    split_ifs
    · exact ih
    · exact .refl _

/-- What stands before the wait. -/
theorem run_acpiEnable (w : World ε) :
    ∃ t, t.bus = commanded b w ∧ (∀ a, polled t a = polled w a) ∧
      ∀ n, (acpiEnable n).run (machine b) w =
        (enableWait w.kernel.acpi.fadt n >>= fun _ =>
          leave .acpiEnable none).run (machine b) t := by
  have henter : (enter .acpiEnable).run (machine b) w = (some (), w.say (.enter .acpiEnable)) :=
    rfl
  obtain ⟨u, hload, hmem, -, hbus⟩ := run_loadDword b (w.kernel.acpi.fadt + SMI_COMMAND_PORT)
    (w.say (.enter .acpiEnable))
  refine ⟨(u.say (.load (w.kernel.acpi.fadt + ACPI_ENABLE))).afterOutb b
    ((w.mem.load32 (w.kernel.acpi.fadt + SMI_COMMAND_PORT)).setWidth 16)
    (u.mem (w.kernel.acpi.fadt + ACPI_ENABLE)), ?_, fun a => ?_, fun n => ?_⟩
  · show b.outb _ _ u.bus = _
    rw [hbus, hmem]
    rfl
  · show polled u a = polled w a
    rw [polled, hmem]
    rfl
  · unfold acpiEnable procedure
    rw [Prog.run_bind_of_some _ henter]
    simp only [Prog.bind_bind]
    rw [Prog.run_bind_of_some _ (run_getKernel b _)]
    exact Prog.run_bind_of_some _ hload

end Acpi

/-! ### Calls that come to an end -/

/-- The operation is no call that may go on for ever, or one that the devices let end. -/
def Completes (b : Bus ε) : Op → World ε → Prop
  | .enter .acpiEnable, u => ¬ Acpi.WaitsForever b u
  | o, u => Ps2.Stops b o u

/-- Not the mark of a call. -/
def Uncalled : Event → Prop
  | .enter _ => False
  | _ => True

/-- Not the mark of the call of `acpi_enable`. -/
def Unasked (e : Event) : Prop := e ≠ .enter .acpiEnable

section Decided

variable {b : Bus ε} {trap : Kern Unit} {α : Type}

/-- An operation that calls none of the three waits lets them complete. -/
theorem completes_of_uncalled {o : Op} (h : o.Within Uncalled fun _ _ => True) (u : World ε) :
    Completes b o u := by
  cases o with
  | enter f => exact absurd h id
  | _ => trivial

/-- Where `acpi_enable` is not called, its wait is no condition. -/
theorem completes_iff_stops {o : Op} (u : World ε) (h : o.Within Unasked fun _ _ => True) :
    Ps2.Stops b o u ↔ Completes b o u := by
  cases o with
  | enter f =>
    cases f with
    | acpiEnable => exact absurd rfl h
    | _ => rfl
  | _ => rfl

/-- Code without a call that is followed. -/
theorem decided_uncalled {m : Machine io (World ε)} {p : Kern α}
    (hret : ∀ s, ∃ a t, p.run m s = (some a, t))
    (hs : Stays Uncalled (fun _ _ => True) p) : Decided m (Completes b) fun _ => p :=
  decided_of_returns hret (Prog.Always.mono (fun _ ho u => completes_of_uncalled ho u) hs)

/-- Behind its mark, `acpi_enable` makes no call. -/
theorem stays_acpiEnable_rest (n : ℕ) : Stays Uncalled (fun _ _ => True) (do
    let k ← getKernel
    let port ← loadDword (k.acpi.fadt + Acpi.SMI_COMMAND_PORT)
    let data ← loadByte (k.acpi.fadt + Acpi.ACPI_ENABLE)
    writeByte (port.setWidth 16) data
    Acpi.enableWait k.acpi.fadt n
    leave .acpiEnable none) := by
  have hscans : Acpi.Scans Uncalled := ⟨fun _ => trivial, fun _ => trivial⟩
  exact stays_getKernel.bind fun _ => (Acpi.stays_loadDword hscans _).bind fun _ =>
    (stays_loadByte trivial).bind fun _ => (stays_writeByte trivial).bind fun _ =>
    (Acpi.stays_enableWait hscans (fun _ _ => trivial) _ _).bind fun _ =>
    ⟨trivial, fun _ => trivial⟩

/-- **`acpi_enable` returns exactly where the firmware hands over.** -/
theorem decided_acpiEnable :
    Decided (machine b) (Completes b) fun n => Acpi.acpiEnable n where
  growing := by
    refine (growing_const _).bind fun _ => Growing.bind ?_ fun _ => growing_const _
    refine (growing_const _).bind fun k => (growing_const _).bind fun port => ?_
    exact (growing_const _).bind fun data => (growing_const _).bind fun _ =>
      Acpi.growing_enableWait _
  returns_iff s := by
    obtain ⟨t, hbus, hport, hrun⟩ := Acpi.run_acpiEnable (b := b) s
    have hwait := Acpi.enableWait_returns_iff (b := b) s.kernel.acpi.fadt t
    rw [hport, hbus] at hwait
    -- the mark of the call is the only operation that may be forbidden
    have hmark : (∀ o u, Asks (machine b) (fun n => Acpi.acpiEnable n) s o u → Completes b o u) ↔
        ¬ Acpi.WaitsForever b s := by
      refine ⟨fun h => h (.enter .acpiEnable) s ⟨0, List.mem_cons_self⟩, fun h o u => ?_⟩
      rintro ⟨n, ho⟩
      rcases List.mem_cons.1 ho with he | ho
      · obtain ⟨rfl, rfl⟩ := Prod.mk.inj he
        exact h
      · exact completes_of_uncalled ((stays_acpiEnable_rest n).asked ho) u
    rw [hmark, Acpi.WaitsForever, not_forall, ← hwait]
    constructor
    · rintro ⟨_, u, n, hn⟩
      obtain ⟨_, v, hv, -⟩ := (Prog.run_bind_eq_some _).1 ((hrun n).symm.trans hn)
      exact ⟨n, v, hv⟩
    · rintro ⟨n, u, hn⟩
      refine ⟨(), u.say (.leave .acpiEnable none), n, ?_⟩
      rw [hrun, Prog.run_bind_of_some _ hn]
      rfl

/-! ### The drivers -/

theorem types_unasked : Ps2.Types Unasked fun _ _ => True where
  status _ := nofun
  data _ := nofun
  print _ _ := nofun
  drives _ :=
    { select := fun _ => ⟨⟨nofun, fun _ => nofun⟩, nofun⟩
      write := fun _ => nofun
      call := fun _ => ⟨nofun, fun _ => nofun⟩ }
  readData := ⟨nofun, fun _ => nofun⟩
  setScanCodes := ⟨nofun, fun _ => nofun⟩
  clearMask := stays_irqClearMask nofun nofun (fun _ => nofun) fun _ => nofun
  int := nofun
  kbd _ _ := trivial
  idt _ _ _ _ := trivial

theorem talks_unasked : Ps2.Talks Unasked where
  toPolls := types_unasked.toPolls
  write _ := nofun
  readData := ⟨nofun, fun _ => nofun⟩
  getConfig := ⟨nofun, fun _ => nofun⟩
  setConfig _ := ⟨nofun, fun _ => nofun⟩

/-- `ps2_init` does not call `acpi_enable`. -/
theorem stays_ps2Init_unasked (L : Layout) (n : ℕ) :
    Stays Unasked (fun _ _ => True) (Ps2.ps2Init L n) :=
  Ps2.stays_ps2Init types_unasked talks_unasked (fun _ => ⟨⟨nofun, fun _ => nofun⟩, nofun⟩)
    (fun _ _ _ => trivial) Ps2.assignsIds_true
    (fun _ => ⟨⟨nofun, fun _ => nofun⟩, ⟨nofun, fun _ => nofun⟩, fun _ _ => nofun⟩) L n

/-! ### `main` -/

/-- Whether `main` returns is decided by its three unbounded waits. -/
theorem decided_main (L : Layout) :
    Decided (trapping b trap) (Completes b) fun n => main L n := by
  have hscans : Acpi.Scans Uncalled := ⟨fun _ => trivial, fun _ => trivial⟩
  have hquiet : Acpi.Scans Unraised := ⟨fun _ => trivial, fun _ => trivial⟩
  have hgreet : Decided (trapping b trap) (Completes b) fun _ => mainGreet :=
    decided_uncalled (fun _ => ⟨_, _, rfl⟩)
      (stays_greeting trivial (fun _ => trivial) fun _ _ _ => trivial)
  have hpic : Decided (trapping b trap) (Completes b) fun _ => picInit :=
    decided_uncalled (fun _ => ⟨_, _, rfl⟩)
      (stays_remap (fun _ _ => trivial) (fun _ _ _ => trivial) fun _ _ _ => trivial)
  have hidt : Decided (trapping b trap) (Completes b) fun _ => idtInit L :=
    decided_uncalled (fun _ => ⟨_, _, rfl⟩) (stays_idtInit L (fun _ _ => trivial) trivial trivial)
  have hprint : ∀ text args,
      Decided (trapping b trap) (Completes b) fun _ => println text args :=
    fun _ _ => decided_uncalled (fun _ => ⟨_, _, rfl⟩) (stays_printMessage trivial)
  have hrsdp : Decided (trapping b trap) (Completes b) fun _ => Acpi.initRsdp := by
    refine Ps2.decided_trapping (decided_uncalled (fun s => ?_)
      (Acpi.stays_initRsdp hscans fun _ _ => trivial))
      fun _ => Acpi.stays_initRsdp hquiet fun _ _ => trivial
    obtain ⟨t, hrun, -⟩ := Acpi.run_initRsdp (b := b) s
    exact ⟨_, t, hrun⟩
  have hacpi : Decided (trapping b trap) (Completes b) fun n => Acpi.acpiEnable n :=
    Ps2.decided_trapping decided_acpiEnable
      (Acpi.stays_acpiEnable hquiet trivial trivial (fun _ _ => trivial) fun _ _ => trivial)
  have hexists : Decided (trapping b trap) (Completes b) fun _ => Acpi.ps2ControllerExists := by
    refine decided_uncalled (CutFree.returns fun k => ?_) (Acpi.stays_ps2ControllerExists hscans)
    exact CutFree.ite _ trivial fun _ => CutFree.ite _ trivial fun _ _ => trivial
  have hps2 : Decided (trapping b trap) (Completes b) fun n => Ps2.ps2Init L n :=
    (Ps2.decided_ps2Init L).congr (stays_ps2Init_unasked L) fun o u h => completes_iff_stops u h
  exact hgreet.bind fun _ => hpic.bind fun _ => hidt.bind fun _ => (hprint _ _).bind fun _ =>
    (hrsdp.bind fun _ => hacpi).bind fun _ => (hprint _ _).bind fun _ =>
    hexists.bind fun found => Decided.ite _ (hps2.bind fun _ => hprint _ _)
      ((hprint _ _).bind fun _ => hprint _ _)

end Decided

/-- **When the boot sequence comes to its end.**  From any machine that the firmware may
hand over, with `NULL` where the stub of `int 0x21` looks for its handler: no handler is
ever invoked, and `main` returns if and only if in its run the control register shows bit 0
at some read behind the command of `acpi_enable`, every device command is answered with
something else than a request to resend at some attempt, and every exchange of scan code
sets reads the set back that was asked for. -/
theorem main_returns_iff (b : Bus ε) (L : Layout) (e : ε) (table : Idt) (ram : Mem) {eip : Dword}
    (hnull : table.NullAt eip) :
    (∀ n, ∀ t ∈ (main L n).states (trapping b (genericStub eip)) (.boot e table ram),
      ∀ h, .invoke h ∉ t.log) ∧
    ((∃ n t, (main L n).run (trapping b (genericStub eip)) (.boot e table ram) = (some (), t)) ↔
      (∀ u, Asks (trapping b (genericStub eip)) (main L) (.boot e table ram)
        (.enter .acpiEnable) u → ¬ Acpi.WaitsForever b u) ∧
      (∀ cmd port u, Asks (trapping b (genericStub eip)) (main L) (.boot e table ram)
        (.enter (.sendDeviceCommand cmd port)) u → ¬ Ps2.ResendsForever b cmd port u) ∧
      ∀ set u, Asks (trapping b (genericStub eip)) (main L) (.boot e table ram)
        (.enter (.kbdSetScanCodes set)) u → ¬ Ps2.WrongForever b set u) := by
  refine ⟨fun n t ht h hlog => (contained_main_stub b L n e ram hnull t ht).allowed _ hlog, ?_⟩
  have hdecided : Decided (trapping b (genericStub eip)) (Completes b) fun n => main L n :=
    decided_main L
  have h := hdecided.returns_iff (.boot e table ram)
  constructor
  · rintro ⟨n, t, hn⟩
    have hall := h.1 ⟨(), t, n, hn⟩
    exact ⟨fun u hu => hall _ u hu, fun cmd port u hu => hall _ u hu, fun set u hu => hall _ u hu⟩
  · rintro ⟨hacpi, hresend, hwrong⟩
    obtain ⟨_, t, n, hn⟩ := h.2 fun o u hu => by
      cases o with
      | enter f =>
        cases f with
        | acpiEnable => exact hacpi u hu
        | sendDeviceCommand cmd port => exact hresend cmd port u hu
        | kbdSetScanCodes set => exact hwrong set u hu
        | _ => trivial
      | _ => trivial
    exact ⟨n, t, hn⟩

/-- The machine that fails its self-test: `main` returns, and the wait for the ACPI mode
comes to its end. -/
theorem main_returns_iff_ones :
    (∃ n t, (main .sample n).run (trapping .ones (genericStub 0x2000))
      (.boot () emptyIdt Acpi.brokenRsdt) = (some (), t)) ∧
    ∀ u, Asks (trapping .ones (genericStub 0x2000)) (main .sample)
      (.boot () emptyIdt Acpi.brokenRsdt) (.enter .acpiEnable) u → ¬ Acpi.WaitsForever .ones u := by
  obtain ⟨t, hrun⟩ := run_main_ones
  have hends : ∃ n t, (main .sample n).run (trapping .ones (genericStub 0x2000))
      (.boot () emptyIdt Acpi.brokenRsdt) = (some (), t) := ⟨1, t, hrun⟩
  exact ⟨hends,
    ((main_returns_iff .ones .sample () emptyIdt Acpi.brokenRsdt nullAt_emptyIdt).2.1 hends).1⟩

end DrewOS
