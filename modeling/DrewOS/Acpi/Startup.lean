/-
# Starting ACPI

What `init_rsdp` leaves in the statics, for every memory image (`run_initRsdp`).
It can end without a FADT in four ways: no root pointer is found, the root table
has a bad checksum, it lists no table, or none of those listed is a sound FADT.
Each of them prints a message and returns, and `acpi_enable` goes on with the
null pointer (`acpiInit_not_harmless`).
-/

import DrewOS.Acpi.Frame
import DrewOS.Acpi.Install
import DrewOS.Effect.Fuel

namespace DrewOS
namespace Acpi

open ByteMem Effect

/-! ### The search for the root pointer -/

/-- The value of `validate_rsdp(rsdp)`. -/
def rsdpValid (m : Mem) (rsdp : Addr) : Bool :=
  m.load32 (rsdp + 4) ++ m.load32 rsdp == RSDP_SIGNATURE && byteSum m RSDP_SIZE rsdp == 0

/-- The value of the loop of `sdp_search`, with `n` candidates from `i` left. -/
def sdpFrom (m : Mem) : ℕ → Addr → Addr
  | 0, _ => 0
  | n + 1, i => if rsdpValid m i then i else sdpFrom m n (i + RSDP_ALIGN)

/-- The value of `sdp_search(start, end)`. -/
def sdpBetween (m : Mem) (start stop : Addr) : Addr :=
  sdpFrom m ((stop.toNat - start.toNat + 15) / 16) start

/-- The value of `ebda_start`. -/
def ebdaStart (m : Mem) : Addr :=
  (m (EBDA_BASE_ADDRESS + 1) ++ m EBDA_BASE_ADDRESS).setWidth 32 <<< 4

/-- The value of `locate_sdp()`. -/
def sdpOf (m : Mem) : Addr :=
  if sdpBetween m (ebdaStart m) (ebdaStart m + EBDA_SIZE) ≠ 0 then
    sdpBetween m (ebdaStart m) (ebdaStart m + EBDA_SIZE)
  else
    sdpBetween m BIOS_MAIN_START BIOS_MAIN_END

/-- The root tables that the root pointer at `sdp` names: RSDT and XSDT. -/
def rootsOf (m : Mem) (sdp : Addr) : Addr × Addr :=
  if m (sdp + RSDP_REVISION) = 2 then (0, m.load32 (sdp + XSDT_ADDRESS))
  else (m.load32 (sdp + RSDT_ADDRESS), 0)

/-- The root pointer at `sdp`, assigned. -/
def pointed (m : Mem) (sdp : Addr) (s : AcpiStatics) : AcpiStatics :=
  if m (sdp + RSDP_REVISION) = 2 then { s with rsdp := 0, xsdp := sdp }
  else { s with rsdp := sdp, xsdp := 0 }

/-- The statics after `rsdt_init(r, x)`. -/
def installed (m : Mem) (r x : Addr) (s : AcpiStatics) : AcpiStatics :=
  if rejected m r x then roots r x s else located m (roots r x s)

/-- The statics after `init_rsdp()`. -/
def initialised (m : Mem) (s : AcpiStatics) : AcpiStatics :=
  if sdpOf m = 0 then s
  else installed m (rootsOf m (sdpOf m)).1 (rootsOf m (sdpOf m)).2 (pointed m (sdpOf m) s)

section Run

variable {ε : Type} {b : Bus ε}

/-- A word, the low byte first. -/
theorem yields_loadWord (a : Addr) (w : World ε) :
    Yields b (loadWord a) w (w.mem (a + 1) ++ w.mem a) := by
  refine (yields_loadByte a w).bind fun t ht => ?_
  refine (yields_loadByte (a + 1) t).bind fun u _ => ?_
  rw [ht.mem]
  exact yields_ret _ _

/-- `validate_rsdp` gives the value of `rsdpValid`. -/
theorem yields_validateRsdp (rsdp : Addr) (w : World ε) :
    Yields b (validateRsdp rsdp) w (rsdpValid w.mem rsdp) := by
  refine (yields_loadQword rsdp w).bind fun t ht => ?_
  unfold rsdpValid
  by_cases h : w.mem.load32 (rsdp + 4) ++ w.mem.load32 rsdp = RSDP_SIGNATURE
  · have hzero : ∀ v : Byte, 0 + v = v := fun v => BitVec.zero_add v
    rw [if_neg (not_not.2 h), beq_iff_eq.2 h, Bool.true_and, ← ht.mem]
    refine (yields_sumBytes RSDP_SIZE rsdp 0 t).bind fun u _ => ?_
    rw [hzero]
    exact yields_ret _ _
  · rw [if_pos h, beq_eq_false_iff_ne.2 h, Bool.false_and]
    exact yields_ret _ _

/-- The scan of `locate_sdp` gives the value of `sdpFrom`. -/
theorem yields_sdpSearchFrom (n : ℕ) (i : Addr) (w : World ε) :
    Yields b (sdpSearchFrom n i) w (sdpFrom w.mem n i) := by
  induction n generalizing i w with
  | zero => exact yields_ret _ _
  | succ n ih =>
    refine (yields_validateRsdp i w).bind fun t ht => ?_
    rw [sdpFrom, ← ht.mem]
    split_ifs
    · exact yields_ret _ _
    · exact ih _ t

/-- `locate_sdp` gives the value of `sdpOf`. -/
theorem yields_locateSdp (w : World ε) : Yields b locateSdp w (sdpOf w.mem) := by
  refine (yields_loadWord _ w).bind fun t ht => ?_
  refine (yields_sdpSearchFrom _ _ t).bind fun u hu => ?_
  rw [ht.mem]
  show Yields b (if sdpBetween w.mem (ebdaStart w.mem) (ebdaStart w.mem + EBDA_SIZE) ≠ 0 then _
    else _) u _
  rw [sdpOf, ← ht.mem, ← hu.mem]
  split_ifs
  · exact yields_ret _ _
  · exact yields_sdpSearchFrom _ _ u

/-- Assign the root pointer, read the address of a root table, and install it. -/
theorem run_install {α : Type} {p : Kern α} {w : World ε} {v : α} (set : AcpiStatics → AcpiStatics)
    (r x : α → Addr) (hp : ∀ t : World ε, t.mem = w.mem → Yields b p t v) :
    ∃ t, (modifyAcpi set >>= fun _ => p >>= fun a => rsdtInit (r a) (x a)).run (machine b) w =
      (some (), t) ∧ Assigned (installed w.mem (r v) (x v) ∘ set) w t := by
  let w' : World ε := { w with kernel := { w.kernel with acpi := set w.kernel.acpi } }
  have hset : Assigned set w w' := ⟨rfl, rfl, rfl⟩
  have hmodify : (modifyAcpi set).run (machine b) w = (some (), w') := rfl
  obtain ⟨t, hrun, ht⟩ := hp w' rfl
  obtain ⟨u, hrun', hu⟩ := run_rsdtInit (b := b) (r v) (x v) t
  refine ⟨u, ?_, ?_⟩
  · rw [Prog.run_bind_of_some _ hmodify, Prog.run_bind_of_some _ hrun, hrun']
  · rw [ht.mem] at hu
    exact (hset.trans ht.assigned).trans hu

/-- **The statics after `init_rsdp`.** -/
theorem run_initRsdp (w : World ε) :
    ∃ t, initRsdp.run (machine b) w = (some (), t) ∧ Assigned (initialised w.mem) w t := by
  obtain ⟨t, hrun, ht⟩ := yields_locateSdp (b := b) w
  unfold initRsdp
  rw [Prog.run_bind_of_some _ hrun]
  by_cases hsdp : sdpOf w.mem = 0
  · have hsame : initialised w.mem = id := by
      funext s
      rw [initialised, if_pos hsdp]
      rfl
    rw [if_pos hsdp, hsame]
    exact ⟨_, rfl, ht.bus, ht.kernel, ht.mem⟩
  · obtain ⟨u, hrun', hu⟩ := yields_loadByte (b := b) (sdpOf w.mem + RSDP_REVISION) t
    rw [if_neg hsdp, Prog.run_bind_of_some _ hrun', ht.mem]
    have hmem : u.mem = w.mem := hu.mem.trans ht.mem
    have hread : Assigned id w u := ht.assigned.trans hu.assigned
    by_cases hrevision : w.mem (sdpOf w.mem + RSDP_REVISION) = 2
    · have hxsdt : ∀ v : World ε, v.mem = u.mem →
          Yields b (loadQword (sdpOf w.mem + XSDT_ADDRESS)) v
            (w.mem.load32 (sdpOf w.mem + XSDT_ADDRESS + 4) ++
              w.mem.load32 (sdpOf w.mem + XSDT_ADDRESS)) := by
        intro v hv
        rw [← hmem, ← hv]
        exact yields_loadQword _ v
      obtain ⟨v, hrun'', hv⟩ := run_install
        (fun a => { a with rsdp := 0, xsdp := sdpOf w.mem }) (fun _ => 0)
        (fun q : BitVec 64 => q.setWidth 32) hxsdt
      rw [setWidth_qword, hmem] at hv
      have hinit : initialised w.mem =
          installed w.mem 0 (w.mem.load32 (sdpOf w.mem + XSDT_ADDRESS)) ∘
            fun a => { a with rsdp := 0, xsdp := sdpOf w.mem } := by
        funext s
        rw [initialised, if_neg hsdp, rootsOf, pointed, if_pos hrevision, if_pos hrevision]
        rfl
      rw [if_pos hrevision, hinit]
      exact ⟨v, hrun'', hread.trans hv⟩
    · have hrsdt : ∀ v : World ε, v.mem = u.mem →
          Yields b (loadDword (sdpOf w.mem + RSDT_ADDRESS)) v
            (w.mem.load32 (sdpOf w.mem + RSDT_ADDRESS)) := by
        intro v hv
        rw [← hmem, ← hv]
        exact yields_loadDword _ v
      obtain ⟨v, hrun'', hv⟩ := run_install
        (fun a => { a with rsdp := sdpOf w.mem, xsdp := 0 }) id (fun _ => 0) hrsdt
      rw [hmem] at hv
      have hinit : initialised w.mem =
          installed w.mem (w.mem.load32 (sdpOf w.mem + RSDT_ADDRESS)) 0 ∘
            fun a => { a with rsdp := sdpOf w.mem, xsdp := 0 } := by
        funext s
        rw [initialised, if_neg hsdp, rootsOf, pointed, if_neg hrevision, if_neg hrevision]
        rfl
      rw [if_neg hrevision, hinit]
      exact ⟨v, hrun'', hread.trans hv⟩

end Run

/-- `init_rsdp` leaves the FADT that it has found. -/
theorem fadt_initRsdp {ε : Type} (b : Bus ε) (w : World ε) :
    (initRsdp.run (machine b) w).2.kernel.acpi.fadt = (initialised w.mem w.kernel.acpi).fadt := by
  obtain ⟨t, hrun, ht⟩ := run_initRsdp (b := b) w
  rw [hrun, ht.acpi]

/-- Without a valid root pointer anywhere in memory none is found. -/
theorem sdpOf_eq_zero {m : Mem} (h : ∀ a, rsdpValid m a = false) : sdpOf m = 0 := by
  have hfrom : ∀ n i, sdpFrom m n i = 0 := by
    intro n
    induction n with
    | zero => exact fun i => rfl
    | succ n ih =>
      intro i
      rw [sdpFrom, h i, if_neg Bool.false_ne_true]
      exact ih _
  rw [sdpOf, sdpBetween, hfrom, if_neg (not_not.2 rfl)]
  exact hfrom _ _

/-! ### Without a FADT -/

section Harmless

variable {ε : Type}

/-- The bytes of the table at `fadt` that `acpi_enable` reads. -/
def enableFields (fadt : Addr) : List Addr :=
  [fadt + SMI_COMMAND_PORT, fadt + SMI_COMMAND_PORT + 1, fadt + SMI_COMMAND_PORT + 2,
    fadt + SMI_COMMAND_PORT + 3, fadt + ACPI_ENABLE, fadt + PM1A_CONTROL_BLOCK,
    fadt + PM1A_CONTROL_BLOCK + 1, fadt + PM1A_CONTROL_BLOCK + 2, fadt + PM1A_CONTROL_BLOCK + 3]

/-- `acpi_init` returns, reads no field of a table at `NULL` once `acpi_enable` is
entered, and writes to no port. -/
structure Harmless (b : Bus ε) (w : World ε) : Prop where
  returns : ∃ t, Returns (machine b) acpiInit w () t
  unread : ∀ n, ∀ u ∈ (acpiInit n).states (machine b) w, ∀ l l',
    u.log = w.log ++ l ++ .enter .acpiEnable :: l' → ∀ a ∈ enableFields 0, .load a ∉ l'
  unwritten : ∀ n, ∀ u ∈ (acpiInit n).states (machine b) w, ∀ l port data,
    u.log = w.log ++ l → .outb port data ∉ l

variable {b : Bus ε}

/-- `acpi_enable` reads its fields through the pointer and writes to the port that
they name. -/
theorem states_acpiEnable (n : ℕ) (w : World ε) :
    ∃ u ∈ (acpiEnable n).states (machine b) w, u.log = w.log ++ .enter .acpiEnable ::
      ((enableFields w.kernel.acpi.fadt).take 5).map .load ++
        [.outb ((w.mem.load32 (w.kernel.acpi.fadt + SMI_COMMAND_PORT)).setWidth 16)
          (w.mem (w.kernel.acpi.fadt + ACPI_ENABLE))] := by
  refine ⟨_, List.mem_of_getElem? (states_acpiEnable_write b n w), ?_⟩
  have hlog : ∀ (l : List Event) (e₁ e₂ e₃ e₄ e₅ e₆ e₇ : Event),
      l ++ [e₁] ++ [e₂] ++ [e₃] ++ [e₄] ++ [e₅] ++ [e₆] ++ [e₇] =
        l ++ e₁ :: [e₂, e₃, e₄, e₅, e₆] ++ [e₇] := by simp
  exact hlog w.log _ _ _ _ _ _ _

/-- **What `acpi_init` does with the pointer that `init_rsdp` leaves**, in any case. -/
theorem states_acpiInit (n : ℕ) (w : World ε) :
    ∃ u ∈ (acpiInit n).states (machine b) w, ∃ l port data,
      u.log = w.log ++ l ++ .enter .acpiEnable ::
        ((enableFields (initRsdp.run (machine b) w).2.kernel.acpi.fadt).take 5).map .load ++
          [.outb port data] := by
  obtain ⟨t, hrun, -⟩ := run_initRsdp (b := b) w
  obtain ⟨l, hl⟩ := (sat_grows b initRsdp w).run hrun
  obtain ⟨u, hu, hlog⟩ := states_acpiEnable (b := b) n t
  have hmem : u ∈ (acpiInit n).states (machine b) w := by
    rw [acpiInit, Prog.states_bind_of_some _ hrun]
    exact List.mem_append_right _ hu
  rw [← hl] at hlog
  rw [hrun]
  exact ⟨u, hmem, l, _, _, hlog⟩

/-- The fields of a table at `NULL` are not read in vain. -/
theorem Harmless.located {w : World ε} (h : Harmless b w) :
    (initRsdp.run (machine b) w).2.kernel.acpi.fadt ≠ 0 := by
  intro hfadt
  obtain ⟨u, hu, l, port, data, hlog⟩ := states_acpiInit (b := b) 0 w
  rw [hfadt, List.append_assoc, List.cons_append] at hlog
  have hread : .load (0 + SMI_COMMAND_PORT) ∈ ((enableFields 0).take 5).map Event.load :=
    List.mem_cons_self ..
  exact h.unread 0 u hu l _ hlog _ (List.mem_cons_self ..) (List.mem_append_left _ hread)

end Harmless

/-- **Without a FADT `acpi_init` is not harmless**, whatever the reason for which
none was located. -/
theorem acpiInit_not_harmless {ε : Type} (b : Bus ε) (w : World ε)
    (hfadt : (initRsdp.run (machine b) w).2.kernel.acpi.fadt = 0) : ¬ Harmless b w :=
  fun h => h.located hfadt

/-- An RSDP at `0x1000`, where the first kilobyte of the extended BIOS data area is
said to be, that names an RSDT with a wrong checksum at `0x2000`. -/
def brokenRsdt : Mem := image
  [(0x040e, [0x00, 0x01]),
    (0x1000, [0x52, 0x53, 0x44, 0x20, 0x50, 0x54, 0x52, 0x20, 0xc1, 0, 0, 0, 0, 0, 0, 0, 0, 0x20]),
    (0x2000, [0, 0, 0, 0, 36])]

/-- The root is rejected, so no FADT is located. -/
theorem acpiInit_not_harmless_brokenRsdt :
    ¬ Harmless Bus.silent (.boot () emptyIdt brokenRsdt) := by
  refine acpiInit_not_harmless Bus.silent (.boot () emptyIdt brokenRsdt) ?_
  rw [fadt_initRsdp]
  decide

/-- A memory of zeros holds no ACPI table at all. -/
theorem not_harmless_zeros :
    (initRsdp.run (machine Bus.silent) (.boot () emptyIdt (image []))).2.kernel.acpi.fadt = 0 ∧
      ¬ Harmless Bus.silent (.boot () emptyIdt (image [])) := by
  have hload : ∀ a, (image []).load32 a = 0 := fun a => rfl
  have hnone : ∀ a, rsdpValid (image []) a = false := by
    intro a
    have hsig : ((0 : Dword) ++ (0 : Dword) == RSDP_SIGNATURE) = false := by decide
    rw [rsdpValid, hload, hload, hsig, Bool.false_and]
  have hfadt : (initialised (image []) ⟨0, 0, 0, 0, 0, 0⟩).fadt = 0 := by
    rw [initialised, if_pos (sdpOf_eq_zero hnone)]
  have hrun := (fadt_initRsdp Bus.silent (.boot () emptyIdt (image []))).trans hfadt
  exact ⟨hrun, fun h => h.located hrun⟩

end Acpi
end DrewOS
