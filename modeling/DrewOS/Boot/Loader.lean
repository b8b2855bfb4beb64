/-
# The boot

`boots` is the run of the boot sector from its entry to its end: it asks the disk once, and
unless the disk fails it enters the kernel at `0x1000` in protected mode, with flat segments,
interrupts disabled and the stack at the top of the free memory.  If the disk fails, it
prints the status and stays in the sector for ever.  On the way the sector is never
overwritten, `BOOT_DRIVE` apart, and no dead code is executed (`Running`).
-/

import DrewOS.Boot.Protected

namespace DrewOS
namespace Boot

open ByteMem Transition X86 X86.Asm
open Printing (HoldsString)

variable {ε : Type} {I : SectorImage} {B : Bios ε} {m₀ : Mem} {s t u q : State ε}
  {Q : State ε → Location Label → Prop}

/-- The kernel is entered. -/
structure KernelEntered (I : SectorImage) (B : Bios ε) (s q t : State ε) (loc : Location Label) :
    Prop where
  loc : loc = .outside 0x1000
  flat : FlatMode t
  esp : t.regs.esp.dword = 0x8fff8
  ebp : t.regs.ebp.dword = 0x90000
  /-- The kernel would return to `jmp $`. -/
  back : load t.mem .dword 0x8fff8 = I.addr ⟨.beginPm, 3⟩
  kernel : ∀ x, KernelMemory x → t.mem x = (afterInt B DISK q).mem x
  /-- After a read without error the sectors behind the boot sector are there. -/
  image : (afterInt B DISK q).flags.cf = false → ∀ i < 32 * 512,
    t.mem (0x1000 + BitVec.ofNat 32 i) = B.disk s.regs.edx.low (512 + i)
  screen : ∀ i c, (ascii "Protected")[i]? = some c →
    t.mem (textCells + BitVec.ofNat 32 (2 * i)) = c ∧
      t.mem (textCells + BitVec.ofNat 32 (2 * i + 1)) = GREEN_ON_BLACK
  written : written t.requests = written s.requests ++ (greeting ++
    (hexText (load (afterInt B DISK q).mem .word 0x1000) ++ crLf))
  reads : reads t.requests = reads s.requests ++ [readRequest s.regs.edx.low]

/-- A string of the sector lies at its address. -/
theorem holdsString_data (hL : I.Loaded m₀) (hI : Intact I m₀ s.mem) {d : Data}
    (hd : d ≠ .bootDrive) (hbytes : I.bytes d = d.text ++ [0]) :
    HoldsString s.mem (I.data d) d.text := by
  refine holdsString_of_bytes d.text_ne_zero ?_
  rw [← hbytes]
  exact data_byte hL hI hd

/-- A call in protected mode leaves everything alone that lies outside the stack. -/
theorem called_mem {E a : ℕ} {pc : Pc Label} (hbits : pc.label.bits = .dword)
    (hstack : StackAt E a s) (ha : 4 ≤ a) {x : Addr} (hx : x.toNat < a - 4 ∨ a ≤ x.toNat) :
    (called I.toImage pc a s).mem x = s.mem x := by
  have hbytes : (program.bits pc.label).bytes = 4 := by
    show pc.label.bits.bytes = 4
    rw [hbits]
    rfl
  have hlt := hstack.lt
  have hat : (BitVec.ofNat 32 (a - 4)).toNat = a - 4 := by bv_omega
  refine store_of_ge s.mem _ ?_
  rw [hbytes, BitVec.toNat_sub, hat]
  omega

/-- The message has been written to the screen, and the kernel is about to be called. -/
structure Announced (s t : State ε) : Prop where
  flat : FlatMode t
  stack : StackAt 0x90000 0x8fffc t
  ebp : t.regs.ebp.dword = 0x90000
  mem : ∀ x : Addr, x.toNat < 0x80000 → t.mem x = s.mem x
  screen : ∀ i c, (ascii "Protected")[i]? = some c →
    t.mem (textCells + BitVec.ofNat 32 (2 * i)) = c ∧
      t.mem (textCells + BitVec.ofNat 32 (2 * i + 1)) = GREEN_ON_BLACK
  requests : t.requests = s.requests

/-- `call print_pm`. -/
theorem leads_announced (hL : I.Loaded m₀) (hI : Intact I m₀ s.mem) (hs : FlatMode s)
    (hstack : StackAt 0x90000 0x8fffc s) (hebx : s.regs.ebx.dword = I.data .msgProtMode)
    (hebp : s.regs.ebp.dword = 0x90000)
    (hnext : ∀ t, Announced s t → Leads I B m₀ Q t ⟨.beginPm, 2⟩) :
    Leads I B m₀ Q s ⟨.beginPm, 1⟩ := by
  have hentered := entered_called (I := I.toImage) ⟨.beginPm, 1⟩ hstack (by decide) (by decide)
  have hbelow : ∀ x : Addr, x.toNat < 0x80000 →
      (called I.toImage ⟨.beginPm, 1⟩ 0x8fffc s).mem x = s.mem x :=
    fun x hx => called_mem rfl hstack (by decide) (.inl (by omega))
  have hIc := hI.of_below hbelow
  have hdata := I.data_le .msgProtMode
  have hsize : Data.size .msgProtMode = (ascii "Protected").length + 1 := rfl
  have hstring := holdsString_data hL hIc (d := .msgProtMode) (by decide) rfl
  rw [← hebx] at hstring hdata
  refine until_call (P := program) rfl (running_at hI rfl) hs.runs hstack (by decide) ?_
  refine Until.trans (leads_printPm (hs.congr rfl rfl rfl) hIc hentered (by decide) hstring
    (by show s.regs.ebx.dword.toNat + (ascii "Protected").length < 0x80000; omega)) ?_
  rintro ⟨t, loc⟩ ⟨hloc, htflat, htstack, htregs, htmem, htreqs⟩
  obtain rfl : loc = .inside ⟨.beginPm, 2⟩ := hloc
  refine hnext t ⟨htflat, htstack, (htregs .ebp (by decide)).trans hebp, fun x hx => ?_,
    fun i c hc => ?_, htreqs⟩
  · refine (htmem x fun hin => ?_).trans (.trans (paint_of_not_within (by decide) fun hin => ?_)
      (hbelow x hx))
    · have : 0x8fff8 - 32 ≤ x.toNat := hin.1
      omega
    · have : 0xb8280 ≤ x.toNat := hin.1
      omega
  · obtain ⟨hchar, hattr⟩ := paint_cell (m := (called I.toImage ⟨.beginPm, 1⟩ 0x8fffc s).mem)
      (v := textCells) (by decide) hc
    have hi : i < 9 := (List.getElem?_eq_some_iff.1 hc).1
    have hout : ∀ k < 20, ¬ Within (0x8fff8 - 32) 32 (textCells + BitVec.ofNat 32 k) := by
      intro k hk hin
      have hcells : textCells.toNat = 0xb8280 := rfl
      have hhigh : (textCells + BitVec.ofNat 32 k).toNat < 0x8fff8 - 32 + 32 := hin.2
      rw [BitVec.toNat_add, BitVec.toNat_ofNat, hcells] at hhigh
      omega
    exact ⟨(htmem _ (hout _ (by omega))).trans hchar, (htmem _ (hout _ (by omega))).trans hattr⟩

/-- **What a read without error leaves** at `0x1000`. -/
theorem kernel_image (h : AtRead I s q) (hcf : (afterInt B DISK q).flags.cf = false) {i : ℕ}
    (hi : i < 32 * 512) :
    (afterInt B DISK q).mem (0x1000 + BitVec.ofNat 32 i) = B.disk s.regs.edx.low (512 + i) := by
  have hbuf : buffer q.segs ⟨q.regs, q.flags, q.mem, q.env⟩ = 0x1000 := by
    show q.segs.es.base + q.regs.ebx.word.setWidth 32 = 0x1000
    rw [h.real.es, h.bx]
    decide
  have hah : q.regs.eax.high = 0x02 := by
    rw [← Register.word_high, h.ax]
    decide
  have hal : q.regs.eax.low = 0x20 := by
    rw [← Register.word_low, h.ax]
    decide
  have hch : q.regs.ecx.high = 0 := by
    rw [← Register.word_high, h.cx]
    decide
  have hcl : q.regs.ecx.low = 2 := by
    rw [← Register.word_low, h.cx]
    decide
  have hdh : q.regs.edx.high = 0 := by
    rw [← Register.word_high, h.dx]
    exact Register.word_high ⟨0, 0, s.regs.edx.low⟩
  have hdl : q.regs.edx.low = s.regs.edx.low := by
    rw [← Register.word_low, h.dx]
    exact Register.word_low ⟨0, 0, s.regs.edx.low⟩
  have hread := B.read q.segs ⟨q.regs, q.flags, q.mem, q.env⟩ hah hch hdh hcf i
  rw [hbuf, hal, hcl, hdl] at hread
  exact hread hi

/-- `BEGIN_PM` enters the kernel. -/
theorem leads_beginPm (hL : I.Loaded s.mem) (hq : AtRead I s q) (ht : Switching I B s q t)
    (hu : Beginning t u) :
    Leads I B s.mem (KernelEntered I B s q) u ⟨.beginPm, 0⟩ := by
  have hIu : Intact I s.mem u.mem := ht.intact.of_below hu.mem
  refine leads_flat rfl rfl rfl hu.flat hIu rfl ?_
  refine leads_announced hL hIu (hu.flat.congr rfl rfl rfl) (hu.stack.setReg (by decide) _) ?_
    hu.ebp fun v hv => ?_
  · refine (Register.dword_setDword ..).trans ?_
    exact BitVec.setWidth_eq _
  have hIv : Intact I s.mem v.mem := hIu.of_below hv.mem
  refine until_callOut (P := program) rfl (running_at hIv rfl) hv.flat.runs hv.stack (by decide)
    (.here ?_)
  have hcalled : ∀ x : Addr, x.toNat < 0x80000 ∨ 0x90000 ≤ x.toNat →
      (called I.toImage ⟨.beginPm, 2⟩ 0x8fffc v).mem x = v.mem x :=
    fun x hx => called_mem rfl hv.stack (by decide) (by omega)
  have hreqs : v.requests = t.requests := hv.requests.trans hu.requests
  have hstack : StackAt 0x90000 0x8fff8 (called I.toImage ⟨.beginPm, 2⟩ 0x8fffc v) :=
    hv.stack.withStack (by decide) _
  have hkernel : ∀ x, KernelMemory x →
      (called I.toImage ⟨.beginPm, 2⟩ 0x8fffc v).mem x = (afterInt B DISK q).mem x := by
    intro x hx
    have hlt := hx.2
    exact (hcalled x (by omega)).trans ((hv.mem x (by omega)).trans ((hu.mem x (by omega)).trans
      (ht.kernel x hx)))
  refine ⟨rfl, hv.flat.congr rfl rfl rfl, ?_, hv.ebp, ?_, hkernel, fun hcf i hi => ?_,
    fun i c hc => ?_, ?_, ?_⟩
  · exact esp_of_flat hstack hv.flat.ss
  · exact (load_store ..).trans (BitVec.setWidth_eq _)
  · refine (hkernel _ ?_).trans (kernel_image hq hcf hi)
    unfold KernelMemory
    rw [BitVec.toNat_add, BitVec.toNat_ofNat]
    show 0x1000 ≤ (0x1000 + i % 2 ^ 32) % 2 ^ 32 ∧ (0x1000 + i % 2 ^ 32) % 2 ^ 32 < 0x5000
    omega
  · obtain ⟨hchar, hattr⟩ := hv.screen i c hc
    have hi : i < 9 := (List.getElem?_eq_some_iff.1 hc).1
    have hcell : ∀ k < 20, 0x90000 ≤ (textCells + BitVec.ofNat 32 k).toNat := by
      intro k hk
      have hcells : textCells.toNat = 0xb8280 := rfl
      rw [BitVec.toNat_add, BitVec.toNat_ofNat, hcells]
      omega
    exact ⟨(hcalled _ (.inr (hcell _ (by omega)))).trans hchar,
      (hcalled _ (.inr (hcell _ (by omega)))).trans hattr⟩
  · exact (congrArg written hreqs).trans ht.written
  · exact (congrArg reads hreqs).trans ht.reads

/-- The processor stays behind the error message. -/
structure Hung (I : SectorImage) (B : Bios ε) (s q : State ε) (c : Config Label ε) : Prop
    extends Stuck I B s q c.state where
  loc : c.loc = .inside ⟨.diskError, 9⟩
  fixed : step I.toImage B.call c = some c

/-- `jmp $`. -/
theorem step_hung (hu : RealMode u) : step I.toImage B.call ⟨u, .inside ⟨.diskError, 9⟩⟩ =
    some ⟨u, .inside ⟨.diskError, 9⟩⟩ := by
  show (if u.Runs .word then _ else none) = _
  rw [if_pos hu.runs]
  rfl

/-- **The run of the boot sector.** -/
theorem boots (B : Bios ε) (h : Handover I s) :
    ∃ q, AtRead I s q ∧
      Until (step I.toImage B.call) (Running I s.mem) (· = ⟨q, .inside ⟨.diskLoad, 6⟩⟩)
        ⟨s, .inside ⟨.start, 0⟩⟩ ∧
      if Fails B q then
        Until (step I.toImage B.call) (Running I s.mem) (Hung I B s q) ⟨s, .inside ⟨.start, 0⟩⟩ ∧
          Always (step I.toImage B.call) (Running I s.mem) ⟨s, .inside ⟨.start, 0⟩⟩
      else
        Until (step I.toImage B.call) (Running I s.mem)
          (fun c => KernelEntered I B s q c.state c.loc) ⟨s, .inside ⟨.start, 0⟩⟩ := by
  have hread : Leads I B s.mem (fun q loc => AtRead I s q ∧ loc = .inside ⟨.diskLoad, 6⟩) s
      ⟨.start, 0⟩ := leads_read h fun q hq => .here ⟨hq, rfl⟩
  obtain ⟨⟨q, loc⟩, ⟨hq, hloc⟩, hrun⟩ := hread.exists_eq
  obtain rfl : loc = .inside ⟨.diskLoad, 6⟩ := hloc
  refine ⟨q, hq, hrun, ?_⟩
  have hfrom : ∀ {P : Config Label ε → Prop},
      Until (step I.toImage B.call) (Running I s.mem) P ⟨q, .inside ⟨.diskLoad, 6⟩⟩ →
        Until (step I.toImage B.call) (Running I s.mem) P ⟨s, .inside ⟨.start, 0⟩⟩ := by
    intro P hP
    refine hrun.trans ?_
    rintro c rfl
    exact hP
  split_ifs with hfails
  · have hhung : Until (step I.toImage B.call) (Running I s.mem) (Hung I B s q)
        ⟨q, .inside ⟨.diskLoad, 6⟩⟩ := by
      refine leads_answer (Q := fun t loc => Hung I B s q ⟨t, loc⟩) hq
        (fun hok => absurd hfails hok) fun _ t ht hah => ?_
      exact leads_failed h.loaded ht hah fun u hu => .here ⟨hu, rfl, step_hung hu.real⟩
    refine ⟨hfrom hhung, Until.always ((hfrom hhung).post fun c hc => ?_)⟩
    refine always_of_fixed hc.fixed ⟨hc.intact, _, hc.loc, rfl⟩
  · refine hfrom (leads_answer (Q := KernelEntered I B s q) hq (fun _ t ht => ?_)
      fun hbad => absurd hbad hfails)
    refine leads_loaded ht fun u hu => ?_
    refine leads_switchToPm h.loaded hu.intact hu.real fun v hv => ?_
    exact leads_initPm h.loaded hu.intact hv fun w hw => leads_beginPm h.loaded hq hu hw

/-! ### A machine that boots -/

/-- The places of the program, in the order of the text. -/
def places : List (Pc Label) :=
  [.start, .print, .printStart, .printEnd, .printLf, .println, .clrscr, .printHex,
    .printHexLoopStart, .unknownDigit, .number, .letter, .printHexLoopEnd, .printHexEnd,
    .printlnHex,
    .diskLoad, .diskLoadSuccess, .diskNsectError, .diskError, .switchToPm, .initPm, .printPm,
    .printPmLoop, .printPmDone, .loadKernel, .beginPm].flatMap
      fun l : Label => (List.range (code l).length).map (Pc.mk l)

/-- Every instruction has its place. -/
theorem mem_places {pc : Pc Label} (h : pc.index < (code pc.label).length) : pc ∈ places := by
  obtain ⟨l, k⟩ := pc
  refine List.mem_flatMap.2 ⟨l, ?_, List.mem_map.2 ⟨k, List.mem_range.2 h, rfl⟩⟩
  cases l <;> decide

/-- There are fewer than 256 places. -/
theorem idxOf_places {pc : Pc Label} (h : pc.index < (code pc.label).length) :
    places.idxOf pc < 0x100 :=
  lt_of_lt_of_le (List.idxOf_lt_length_of_mem (mem_places h)) (by decide +kernel)

/-- The places one behind the other, from the sector's start. -/
def placeAddr (pc : Pc Label) : Addr := BitVec.ofNat 32 (0x7c00 + places.idxOf pc)

theorem toNat_placeAddr {pc : Pc Label} (h : pc.index < (code pc.label).length) :
    (placeAddr pc).toNat = 0x7c00 + places.idxOf pc := by
  have hlt := idxOf_places h
  rw [placeAddr, BitVec.toNat_ofNat]
  exact Nat.mod_eq_of_lt (by omega)

/-- Different instructions lie at different addresses. -/
theorem place_at_placeAddr (pc : Pc Label) (h : pc.index < (code pc.label).length) :
    places[(placeAddr pc).toNat - 0x7c00]? = some pc := by
  rw [toNat_placeAddr h, Nat.add_sub_cancel_left]
  exact List.getElem?_idxOf (mem_places h)

/-- The code lies below `0x10000`. -/
theorem placeAddr_lt (pc : Pc Label) (h : pc.index < (code pc.label).length) :
    (placeAddr pc).toNat < 2 ^ 16 := by
  have hlt := idxOf_places h
  rw [toNat_placeAddr h]
  omega

/-- The data behind them. -/
def dataAddr : Data → Addr
  | .bootDrive => 0x7d00 | .msgRealMode => 0x7d10 | .msgProtMode => 0x7d20
  | .msgLoadKernel => 0x7d30 | .errUnknown => 0x7d40 | .diskErrorMsg => 0x7d50
  | .diskErrorMsgCtx => 0x7d60 | .diskErrorMsgNsect => 0x7d70 | .gdtStart => 0x7da0
  | .gdtDescriptor => 0x7dc0

/-- The data lie in the sector. -/
theorem dataAddr_ge (d : Data) : 0x7c00 ≤ (dataAddr d).toNat := by cases d <;> decide

/-- The data end in the sector. -/
theorem dataAddr_le (d : Data) : (dataAddr d).toNat + d.size ≤ 0x7e00 := by cases d <;> decide

/-- The byte of the boot drive overlaps no other datum. -/
theorem driveAddr_apart (d : Data) (h : d ≠ .bootDrive) :
    (dataAddr .bootDrive).toNat < (dataAddr d).toNat ∨
      (dataAddr d).toNat + d.size ≤ (dataAddr .bootDrive).toNat := by
  cases d with
  | bootDrive => exact absurd rfl h
  | _ => decide

/-- The sector with one byte for each instruction. -/
def sampleImage : SectorImage where
  addr := placeAddr
  pcAt a := places[a.toNat - 0x7c00]?
  data := dataAddr
  pcAt_addr := place_at_placeAddr
  addr_lt := placeAddr_lt
  data_ge := dataAddr_ge
  data_le := dataAddr_le
  drive_apart := driveAddr_apart

/-- The memory in which the sector lies. -/
def sampleMem : Mem := fun x =>
  ([Data.msgRealMode, .msgProtMode, .msgLoadKernel, .errUnknown, .diskErrorMsg, .diskErrorMsgCtx,
    .diskErrorMsgNsect, .gdtStart, .gdtDescriptor].filterMap fun d =>
      if (sampleImage.data d).toNat ≤ x.toNat then
        (sampleImage.bytes d)[x.toNat - (sampleImage.data d).toNat]?
      else none).headD 0

theorem sample_loaded : sampleImage.Loaded sampleMem := by
  have hall : ∀ d, ∀ i < (sampleImage.bytes d).length,
      (sampleImage.bytes d)[i]? = some (sampleMem (sampleImage.data d + BitVec.ofNat 32 i)) := by
    intro d
    cases d <;> decide +kernel
  intro d i b hb
  have hi := (List.getElem?_eq_some_iff.1 hb).1
  exact Option.some.inj ((hall d i hi).symm.trans hb)

/-- A BIOS that keeps all registers, and a drive that can be read if the buffer lies in the
address space. -/
def sampleBios : Bios Unit where
  call n g q :=
    if n = DISK then
      if (buffer g q).toNat + 512 * q.regs.eax.low.toNat ≤ 2 ^ 32 then
        { q with
          flags := { q.flags with cf := false }
          mem := fun x =>
            if (buffer g q).toNat ≤ x.toNat ∧
                x.toNat < (buffer g q).toNat + 512 * q.regs.eax.low.toNat then
              BitVec.ofNat 8 (512 * (q.regs.ecx.low.toNat - 1) + (x.toNat - (buffer g q).toNat))
            else q.mem x }
      else { q with flags := { q.flags with cf := true } }
    else q
  disk _ k := BitVec.ofNat 8 k
  ebx n g q _ := by dsimp only; split_ifs <;> rfl
  ecx n g q _ := by dsimp only; split_ifs <;> rfl
  edx n g q _ := by dsimp only; split_ifs <;> rfl
  esp n g q _ := by dsimp only; split_ifs <;> rfl
  ah g q h := h
  mem n g q x _ hx := by
    dsimp only
    split_ifs with hn hfit
    · exact if_neg fun hin => hx (.inr (.inr (.inr ⟨hn, hin⟩)))
    · rfl
    · rfl
  read g q _ _ _ hcf i hi := by
    rw [if_pos rfl] at hcf ⊢
    by_cases hfit : (buffer g q).toNat + 512 * q.regs.eax.low.toNat ≤ 2 ^ 32
    · have hat : (buffer g q + BitVec.ofNat 32 i).toNat = (buffer g q).toNat + i := by bv_omega
      rw [if_pos hfit]
      show (if _ then _ else _) = _
      rw [hat, if_pos ⟨by omega, by omega⟩, Nat.add_sub_cancel_left]
    · rw [if_neg hfit] at hcf
      exact Bool.noConfusion hcf

/-- The state in which the sector is entered. -/
def sampleState : State Unit :=
  let zero : Register := ⟨0, 0, 0⟩
  let data := Segment.real 0 false
  { regs := ⟨zero, zero, ⟨0, 0, 0x80⟩, zero, zero, zero, zero, zero⟩
    segs := ⟨.real 0 true, data, data, data, data, data⟩
    flags := ⟨false, false, false, false, true⟩
    cr0 := 0
    gdtr := ⟨0, 0⟩
    mem := sampleMem
    requests := []
    env := () }

theorem sample_handover : Handover sampleImage sampleState :=
  ⟨⟨rfl, rfl⟩, rfl, rfl, rfl, rfl, sample_loaded, rfl⟩

/-- The state in which `start` calls `clrscr`, and the one in which `clrscr` is entered. -/
def sampleStart : State Unit :=
  { sampleState with regs := { sampleState.regs with esp := ⟨0, 0x90, 0x00⟩ } }

def sampleCall : State Unit := called sampleImage.toImage ⟨.start, 3⟩ 0x9000 sampleStart

/-- The sample sector, read from a disk of zeros, boots. -/
theorem boots_sample : ∃ q, AtRead sampleImage sampleState q ∧
    Until (step sampleImage.toImage sampleBios.call) (Running sampleImage sampleMem)
      (· = ⟨q, .inside ⟨.diskLoad, 6⟩⟩) ⟨sampleState, .inside ⟨.start, 0⟩⟩ ∧
    if Fails sampleBios q then
      Until (step sampleImage.toImage sampleBios.call) (Running sampleImage sampleMem)
          (Hung sampleImage sampleBios sampleState q) ⟨sampleState, .inside ⟨.start, 0⟩⟩ ∧
        Always (step sampleImage.toImage sampleBios.call) (Running sampleImage sampleMem)
          ⟨sampleState, .inside ⟨.start, 0⟩⟩
    else
      Until (step sampleImage.toImage sampleBios.call) (Running sampleImage sampleMem)
        (fun c => KernelEntered sampleImage sampleBios sampleState q c.state c.loc)
        ⟨sampleState, .inside ⟨.start, 0⟩⟩ :=
  boots sampleBios sample_handover

end Boot
end DrewOS
