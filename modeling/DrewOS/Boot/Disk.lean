/-
# Loading the kernel

From the entry of the boot sector to its only request to the disk (`leads_read`), and
what follows the answer.  `disk_load` asks for 32 sectors from the second one on; the
answer decides by the carry flag and `AL` (`Fails`): with the carry flag clear, or with
any `AL` but zero, the boot goes on (`leads_loaded`), and otherwise the status is
printed and the processor stays at `jmp $` (`leads_failed`).  The comparison that the
source calls one with the correct number of sectors is one with zero, because `DH` has
been set to the head.
-/

import DrewOS.Boot.Text

namespace DrewOS
namespace Boot

open ByteMem Transition X86 X86.Asm
open Printing (HoldsString)

variable {ε : Type} {I : SectorImage} {B : Bios ε} {m₀ : Mem} {pc back : Pc Label} {a : ℕ}
  {s t u q : State ε} {Q : State ε → Location Label → Prop}

/-! ### The strings of the sector -/

/-- A text with its terminating zero in memory is a string. -/
theorem holdsString_of_bytes {m : Mem} {p : Addr} {cs : List Byte} (hne : ∀ c ∈ cs, c ≠ 0)
    (h : HoldsBytes m p (cs ++ [0])) : HoldsString m p cs := by
  have hhead := h 0
  rw [add_ofNat_zero] at hhead
  induction cs generalizing p with
  | nil => exact hhead 0 rfl
  | cons c cs ih =>
    have hrest : HoldsBytes m (p + 1) (cs ++ [0]) := by
      intro i b hb
      have hnext : p + 1 + BitVec.ofNat 32 i = p + BitVec.ofNat 32 (i + 1) := by
        rw [Nat.add_comm i]
        exact add_ofNat_add p 1 i
      rw [hnext]
      exact h (i + 1) b hb
    have hfirst := hrest 0
    rw [add_ofNat_zero] at hfirst
    exact ⟨hhead c rfl, hne c (List.mem_cons_self ..),
      ih (fun b hb => hne b (List.mem_cons_of_mem _ hb)) hrest hfirst⟩

/-- The pieces of data that are strings. -/
def Data.isString : Data → Bool
  | .bootDrive | .gdtStart | .gdtDescriptor => false
  | _ => true

/-- No text of the sector has a zero inside. -/
theorem Data.text_ne_zero (d : Data) : ∀ c ∈ d.text, c ≠ 0 := by
  cases d <;> decide

theorem bytes_length {d : Data} (hd : d ≠ .bootDrive) : (I.bytes d).length = d.size := by
  cases d with
  | bootDrive => exact absurd rfl hd
  | _ => rfl

/-- The data of the sector can be read at every time, `BOOT_DRIVE` apart. -/
theorem data_byte (hL : I.Loaded m₀) (hI : Intact I m₀ s.mem) {d : Data} (hd : d ≠ .bootDrive) :
    HoldsBytes s.mem (I.data d) (I.bytes d) := by
  intro i b hb
  have hge := I.data_ge d
  have hle := I.data_le d
  have hi : i < d.size := by
    rw [← bytes_length (I := I) hd]
    exact (List.getElem?_eq_some_iff.1 hb).1
  have hat : (I.data d + BitVec.ofNat 32 i).toNat = (I.data d).toNat + i := by
    rw [BitVec.toNat_add, BitVec.toNat_ofNat]
    omega
  rw [hI _ (by omega) (by omega) ?_]
  · exact hL d i b hb
  · intro heq
    have hdrive := I.drive_apart d hd
    rw [← heq, hat] at hdrive
    omega

/-- A string of the sector, once `BX` holds its address. -/
theorem stringAt_data (hL : I.Loaded m₀) (hI : Intact I m₀ s.mem) {d : Data}
    (hd : d.isString = true) (hbx : s.regs.ebx.word = (I.data d).setWidth 16) :
    StringAt d.text s := by
  have hge := I.data_ge d
  have hle := I.data_le d
  have hsize : d.size = d.text.length + 1 := by
    cases d <;> first | rfl | exact absurd hd (by decide)
  have hbytes : I.bytes d = d.text ++ [0] := by
    cases d <;> first | rfl | exact absurd hd (by decide)
  have hne : d ≠ .bootDrive := by
    rintro rfl
    exact absurd hd (by decide)
  have haddr : s.regs.ebx.word.setWidth 32 = I.data d := by
    rw [hbx]
    bv_omega
  have hnat : s.regs.ebx.word.toNat = (I.data d).toNat := by
    rw [hbx, BitVec.toNat_setWidth]
    omega
  refine ⟨?_, by omega, by omega⟩
  rw [haddr]
  refine holdsString_of_bytes d.text_ne_zero ?_
  rw [← hbytes]
  exact data_byte hL hI hne

/-! ### The way to the request -/

/-- The data of the sector are addressed by the offsets themselves. -/
theorem linear_data (hs : RealMode s) (d : Data) (n : ℕ) (hn : n ≤ 0x200) :
    s.segs.ds.linear (I.data d) n = some (I.data d) := by
  have := I.data_le d
  rw [hs.ds, linear_real (by omega)]

/-- `mov dl, [BOOT_DRIVE]`. -/
theorem exec_loadDrive (hs : RealMode s) :
    exec I.toImage B.call pc (.mov (.low .edx) (.from (.mem (.data .bootDrive)))) s =
      some ⟨s.setReg .edx { s.regs.edx with low := s.mem (I.data .bootDrive) },
        .inside (program.succ pc)⟩ := by
  show (((s.segs.ds.linear (I.data .bootDrive) 1).map (load s.mem .byte)).bind fun v => _).map _ = _
  rw [linear_data hs .bootDrive 1 (by decide), Option.map_some, load_byte]
  rfl

/-- `mov [BOOT_DRIVE], dl`. -/
theorem exec_storeDrive (hs : RealMode s) :
    exec I.toImage B.call pc (.mov (.mem (.data .bootDrive)) (.from (.low .edx))) s =
      some ⟨{ s with mem := store s.mem .byte (I.data .bootDrive) s.regs.edx.low },
        .inside (program.succ pc)⟩ := by
  show (if s.segs.ds.writable then
    (s.segs.ds.linear (I.data .bootDrive) 1).map _ else none).map _ = _
  rw [linear_data hs .bootDrive 1 (by decide), hs.ds]
  rfl

/-- The two lines in front of the request. -/
def greeting : List Byte := ascii "Started" ++ crLf ++ (ascii "Loading kernel" ++ crLf)

/-- The state in which the disk is asked, when the boot sector was entered in `s`. -/
structure AtRead (I : SectorImage) (s q : State ε) : Prop where
  real : RealMode q
  intact : Intact I s.mem q.mem
  stack : StackAt 0x9000 0x8ffa q
  stacked : Stacked .word q.mem 0x8ffa
    [(32 : Byte) ++ s.regs.edx.low, (I.addr ⟨.loadKernel, 6⟩).setWidth 16,
      (I.addr ⟨.start, 7⟩).setWidth 16]
  ax : q.regs.eax.word = 0x0220
  bx : q.regs.ebx.word = KERNEL_OFFSET
  cx : q.regs.ecx.word = 0x0002
  dx : q.regs.edx.word = (0 : Byte) ++ s.regs.edx.low
  wrote : Wrote greeting s q

/-- The stack has been set up, and the drive has been stored. -/
structure Prepared (I : SectorImage) (s t : State ε) : Prop where
  real : RealMode t
  intact : Intact I s.mem t.mem
  stack : StackAt 0x9000 0x9000 t
  drive : t.mem (I.data .bootDrive) = s.regs.edx.low
  requests : t.requests = s.requests

/-- The first three instructions store the boot drive and put the stack at `0x9000`. -/
theorem leads_prepared (h : Handover I s)
    (hnext : ∀ t, Prepared I s t → Leads I B s.mem Q t ⟨.start, 3⟩) :
    Leads I B s.mem Q s ⟨.start, 0⟩ := by
  have hs : RealMode s := ⟨h.cs.1, h.cs.2, h.ds, h.es, h.ss, h.realMode⟩
  have hI : Intact I s.mem s.mem := fun _ _ _ _ => rfl
  have hI' : Intact I s.mem (store s.mem .byte (I.data .bootDrive) s.regs.edx.low) := by
    intro x hx hx' hdrive
    refine store_of_ge _ _ ?_
    show 1 ≤ (x - I.data .bootDrive).toNat
    bv_omega
  refine leads_instr rfl rfl hs hI (exec_storeDrive hs) ?_
  refine leads_instr rfl rfl hs hI' rfl ?_
  refine leads_instr rfl rfl hs hI' rfl ?_
  refine hnext _ ⟨hs, hI', ?_, ?_, rfl⟩
  · have hsp : (s.regs.esp.setWord (s.regs.ebp.setWord 0x9000).word).word = 0x9000 := by
      rw [Register.word_setWord, Register.word_setWord]
    have hss : s.segs.ss = .real 0 false := h.ss
    refine ⟨?_, ?_, ?_, ?_, le_refl _, ?_⟩
    · exact congrArg Segment.base hss
    · exact congrArg Segment.writable hss
    · show 0x9000 ≤ s.segs.ss.limit.toNat + 1
      rw [hss]
      decide
    · show 0x9000 < if s.segs.ss.big then 2 ^ 32 else 2 ^ 16
      rw [hss]
      decide
    · show (if s.segs.ss.big then _ else
        ((s.regs.esp.setWord (s.regs.ebp.setWord 0x9000).word).word +
          (0 : Dword).setWidth 16).setWidth 32) = _
      rw [hss, hsp]
      rfl
  · have h0 := store_byte s.mem (w := .byte) (I.data .bootDrive) s.regs.edx.low (i := 0) (by decide)
    rw [add_ofNat_zero, pow_zero, Nat.div_one] at h0
    exact h0.trans (BitVec.ofNat_toNat ..)

/-- `push dx`. -/
theorem exec_pushDx (hstack : StackAt 0x9000 a s) (ha : 2 ≤ a) (hreal : real pc = true) :
    exec I.toImage B.call pc (.push .edx) s =
      some ⟨s.withStack (a - 2) (store s.mem .word (BitVec.ofNat 32 (a - 2)) s.regs.edx.word),
        .inside (program.succ pc)⟩ := by
  have hpush := push_eq (w := .word) hstack ha s.regs.edx.word
  show (s.push pc.label.bits (s.regs.edx.read pc.label.bits)).map _ = _
  rw [bits_of_real hreal]
  exact congrArg (Option.map _) hpush

/-- `load_kernel` has been entered. -/
structure Loading (I : SectorImage) (s t : State ε) : Prop where
  real : RealMode t
  intact : Intact I s.mem t.mem
  stack : StackAt 0x9000 0x8ffe t
  stacked : Stacked .word t.mem 0x8ffe [(I.addr ⟨.start, 7⟩).setWidth 16]
  drive : t.mem (I.data .bootDrive) = s.regs.edx.low
  wrote : Wrote (ascii "Started" ++ crLf) s t

/-- Calls leave the byte of the boot drive alone. -/
theorem kept_drive (I : SectorImage) (a : ℕ) : Kept a (I.data .bootDrive) := by
  have hge := I.data_ge .bootDrive
  have hle := I.data_le .bootDrive
  have hsize : Data.size .bootDrive = 1 := rfl
  unfold Kept
  omega

/-- The greeting. -/
theorem leads_loading (h : Handover I s)
    (hnext : ∀ t, Loading I s t → Leads I B s.mem Q t ⟨.loadKernel, 0⟩) :
    Leads I B s.mem Q s ⟨.start, 0⟩ := by
  refine leads_prepared h fun t ht => ?_
  refine leads_call prints_clrscr rfl rfl (by decide) ht.real ht.intact ht.stack (by decide) trivial
    fun u hu _ => ?_
  have hureal := hu.realMode ht.real
  have hIu := hu.intact ht.intact
  refine leads_instr rfl rfl hureal hIu rfl ?_
  have hu1 : Since 0x9000 t [] (u.setReg .ebx (u.regs.ebx.setWord
      ((I.data .msgRealMode).setWidth 16))) := hu.congr rfl rfl rfl rfl rfl
  refine leads_call (prints_println (Data.text .msgRealMode)) rfl rfl (by decide) hureal hIu
    hu1.stack (by decide) (stringAt_data h.loaded ((hu1.intact ht.intact).of_frame
      (frame_called (I := I) hu1.stack rfl (by decide))) rfl (Register.word_setWord ..))
    fun v hv _ => ?_
  have hv' := hu1.trans hv
  refine leads_enter rfl rfl (hv'.realMode ht.real) (hv'.intact ht.intact) hv.stack (by decide) ?_
  have hframe : Frame (Kept 0x9000) t (called I.toImage ⟨.start, 6⟩ 0x9000 v) :=
    hv'.frame.trans (frame_called hv.stack rfl (by decide))
  refine hnext _ ⟨hframe.realMode ht.real, ht.intact.of_frame hframe, ?_, ?_, ?_, ?_⟩
  · exact hv.stack.withStack (by decide) _
  · exact Stacked.push (show Stacked .word _ _ [] from trivial) (by decide) (by decide) _
  · exact (hframe.mem _ (kept_drive I _)).trans ht.drive
  · have hwrote := hv'.wrote
    exact ⟨by rw [← ht.requests]; exact hwrote.written, by rw [← ht.requests]; exact hwrote.reads⟩

/-- `disk_load` has been entered. -/
structure Requesting (I : SectorImage) (s t : State ε) : Prop where
  real : RealMode t
  intact : Intact I s.mem t.mem
  stack : StackAt 0x9000 0x8ffc t
  stacked : Stacked .word t.mem 0x8ffc
    [(I.addr ⟨.loadKernel, 6⟩).setWidth 16, (I.addr ⟨.start, 7⟩).setWidth 16]
  bx : t.regs.ebx.word = KERNEL_OFFSET
  dh : t.regs.edx.high = 32
  dl : t.regs.edx.low = s.regs.edx.low
  wrote : Wrote greeting s t

/-- The second line. -/
theorem leads_requesting (h : Handover I s)
    (hnext : ∀ t, Requesting I s t → Leads I B s.mem Q t ⟨.diskLoad, 0⟩) :
    Leads I B s.mem Q s ⟨.start, 0⟩ := by
  refine leads_loading h fun t ht => ?_
  refine leads_instr rfl rfl ht.real ht.intact rfl ?_
  have ht1 : Since 0x8ffe t [] (t.setReg .ebx (t.regs.ebx.setWord
      ((I.data .msgLoadKernel).setWidth 16))) := (Since.refl ht.stack).congr rfl rfl rfl rfl rfl
  refine leads_call (prints_println (Data.text .msgLoadKernel)) rfl rfl (by decide) ht.real
    ht.intact ht1.stack (by decide) (stringAt_data h.loaded ((ht1.intact ht.intact).of_frame
      (frame_called (I := I) ht1.stack rfl (by decide))) rfl (Register.word_setWord ..))
    fun u hu _ => ?_
  have hu' := ht1.trans hu
  have hureal := hu'.realMode ht.real
  have hIu := hu'.intact ht.intact
  refine leads_instr rfl rfl hureal hIu rfl ?_
  refine leads_instr rfl rfl hureal hIu rfl ?_
  refine leads_instr rfl rfl hureal hIu (exec_loadDrive hureal) ?_
  have hstack : StackAt 0x9000 0x8ffe (((u.setReg .ebx (u.regs.ebx.setWord KERNEL_OFFSET)).setReg
      .edx { u.regs.edx with high := 32 }).setReg .edx
        ⟨u.regs.edx.upper, 32, u.mem (I.data .bootDrive)⟩) := hu.stack.congr rfl rfl
  refine leads_enter rfl rfl hureal hIu hstack (by decide) ?_
  have hstacked : Stacked .word u.mem 0x8ffe [(I.addr ⟨.start, 7⟩).setWidth 16] := by
    refine ht.stacked.congr ?_ fun x hx => hu'.frame.mem x (.inr ?_)
    · show 0x8ffe + 2 ≤ 2 ^ 32
      omega
    · have hlow : 0x8ffe ≤ x.toNat := hx.1
      have hhigh : x.toNat < 0x8ffe + 2 := hx.2
      omega
  refine hnext _ ⟨hureal, (frame_called hstack rfl (by decide)).intact hIu,
    hstack.withStack (by decide) _, ?_, Register.word_setWord .., rfl, ?_, ?_⟩
  · refine hstacked.push (by decide) ?_ _
    show 0x8ffe + 2 ≤ 2 ^ 32
    omega
  · exact (hu'.frame.mem _ (kept_drive I _)).trans ht.drive
  · have hwrote := ht.wrote.trans hu'.wrote
    exact ⟨hwrote.written, hwrote.reads⟩

/-- **The request to the disk.** -/
theorem leads_read (h : Handover I s)
    (hnext : ∀ q, AtRead I s q → Leads I B s.mem Q q ⟨.diskLoad, 6⟩) :
    Leads I B s.mem Q s ⟨.start, 0⟩ := by
  refine leads_requesting h fun t ht => ?_
  have hdx : t.regs.edx.word = (32 : Byte) ++ s.regs.edx.low := by
    rw [← ht.dh, ← ht.dl]
    rfl
  refine leads_instr rfl rfl ht.real ht.intact (exec_pushDx ht.stack (by decide) rfl) ?_
  have hstack := ht.stack.withStack (b := 0x8ffa) (by decide)
    (store t.mem .word (BitVec.ofNat 32 0x8ffa) t.regs.edx.word)
  have hstacked := ht.stacked.push (by decide) (by show 0x8ffc + 4 ≤ 2 ^ 32; omega) t.regs.edx.word
  have hpush : Frame (Kept 0x8ffc) t
      (t.withStack 0x8ffa (store t.mem .word (BitVec.ofNat 32 0x8ffa) t.regs.edx.word)) := by
    refine ⟨rfl, rfl, fun x hx => store_of_ge _ _ ?_⟩
    have hat : (BitVec.ofNat 32 0x8ffa).toNat = 0x8ffa := rfl
    unfold Kept at hx
    rw [BitVec.toNat_sub, hat]
    show 2 ≤ _
    omega
  have hreal := hpush.realMode ht.real
  have hI := hpush.intact ht.intact
  refine leads_instr rfl rfl hreal hI rfl ?_
  refine leads_instr rfl rfl hreal hI rfl ?_
  refine leads_instr rfl rfl hreal hI rfl ?_
  refine leads_instr rfl rfl hreal hI rfl ?_
  refine leads_instr rfl rfl hreal hI rfl ?_
  refine hnext _ ⟨hreal, hI, hstack.congr rfl rfl, ?_, ?_, ht.bx, ?_, ?_,
    ⟨ht.wrote.written, ht.wrote.reads⟩⟩
  · rw [← hdx]
    exact hstacked
  · show Register.word ⟨_, 0x02, t.regs.edx.high⟩ = 0x0220
    rw [ht.dh]
    exact (by decide : 2#8 ++ 32#8 = 0x0220#16)
  · exact (by decide : 0#8 ++ 2#8 = 2#16)
  · rw [← ht.dl]
    rfl

/-! ### The answer -/

/-- The memory into which the kernel is read. -/
def KernelMemory (x : Addr) : Prop := 0x1000 ≤ x.toNat ∧ x.toNat < 0x5000

/-- The answer of the disk ends the boot: the carry flag is set, and `AL` is zero. -/
def Fails (B : Bios ε) (q : State ε) : Prop :=
  (afterInt B DISK q).flags.cf = true ∧ (afterInt B DISK q).regs.eax.low = 0

instance (B : Bios ε) (q : State ε) : Decidable (Fails B q) := inferInstanceAs (Decidable (_ ∧ _))

/-- The only request to the disk. -/
def readRequest (drive : Byte) : Request :=
  ⟨DISK, 0x0220, KERNEL_OFFSET, 0x0002, (0 : Byte) ++ drive⟩

/-- The disk has answered. -/
structure AfterRead (I : SectorImage) (B : Bios ε) (s q t : State ε) : Prop where
  real : RealMode t
  intact : Intact I s.mem t.mem
  stack : StackAt 0x9000 0x8ffa t
  stacked : Stacked .word t.mem 0x8ffa
    [(32 : Byte) ++ s.regs.edx.low, (I.addr ⟨.loadKernel, 6⟩).setWidth 16,
      (I.addr ⟨.start, 7⟩).setWidth 16]
  mem : t.mem = (afterInt B DISK q).mem
  written : written t.requests = written s.requests ++ greeting
  reads : reads t.requests = reads s.requests ++ [readRequest s.regs.edx.low]

/-- What the disk service leaves behind the read. -/
theorem afterRead (h : AtRead I s q) : AfterRead I B s q (afterInt B DISK q) := by
  have hal : q.regs.eax.low = 0x20 := by
    rw [← Register.word_low, h.ax]
    decide
  have hbx : q.regs.ebx.word.toNat = 0x1000 := by
    rw [h.bx]
    rfl
  -- the buffer ends below the sector
  have hans := answered_int (B := B) (K := fun x => Kept 0x8ffa x ∧ ¬ KernelMemory x) (.inr rfl)
    h.real h.stack (by decide) fun x hx => ⟨hx.1, fun _ => ?_⟩
  · have hmem := hans.frame.mem
    refine ⟨hans.frame.realMode h.real, fun x hx hx' hd => ?_, hans.stack, ?_, rfl, ?_, ?_⟩
    · refine (hmem x ⟨.inl ⟨by omega, hx'⟩, ?_⟩).trans (h.intact x hx hx' hd)
      unfold KernelMemory
      omega
    · refine h.stacked.congr (by show 0x8ffa + 6 ≤ 2 ^ 32; omega) fun x hx => hmem x ?_
      have hlow : 0x8ffa ≤ x.toNat := hx.1
      have hhigh : x.toNat < 0x8ffa + 6 := hx.2
      unfold Kept KernelMemory
      omega
    · rw [hans.requests, written_append, h.wrote.written]
      exact List.append_nil _
    · rw [hans.requests, reads_append, h.wrote.reads, h.ax, h.bx, h.cx, h.dx]
      rfl
  · have hout := hx.2
    unfold KernelMemory at hout
    rw [hbx, hal]
    show x.toNat < 0x1000 ∨ 0x1000 + 512 * 32 ≤ x.toNat
    omega

/-- Only flags have changed since the answer. -/
theorem AfterRead.flags (h : AfterRead I B s q t) (f : Flags) :
    AfterRead I B s q { t with flags := f } :=
  ⟨h.real, h.intact, h.stack.congr rfl rfl, h.stacked, h.mem, h.written, h.reads⟩

/-- The branches behind the answer. -/
theorem leads_answer (h : AtRead I s q)
    (hgood : ¬ Fails B q → ∀ t, AfterRead I B s q t → Leads I B s.mem Q t ⟨.diskLoadSuccess, 0⟩)
    (hbad : Fails B q → ∀ t, AfterRead I B s q t →
      t.regs.eax.high = (afterInt B DISK q).regs.eax.high → Leads I B s.mem Q t ⟨.diskError, 2⟩) :
    Leads I B s.mem Q q ⟨.diskLoad, 6⟩ := by
  have ht := afterRead (B := B) h
  refine leads_instr rfl rfl h.real h.intact (exec_int h.real DISK) ?_
  by_cases hcf : (afterInt B DISK q).flags.cf = true
  · have hcarry : Cond.carry.holds (afterInt B DISK q).flags = true := hcf
    refine leads_jump hcarry rfl rfl ht.real ht.intact ?_
    refine leads_instr rfl rfl ht.real ht.intact rfl ?_
    have hdh : (afterInt B DISK q).regs.edx.high = 0 := by
      have hdx : (afterInt B DISK q).regs.edx.word = q.regs.edx.word := B.edx _ _ _ (.inr rfl)
      have hhigh := Register.word_high ⟨0, 0, s.regs.edx.low⟩
      rw [← Register.word_high, hdx, h.dx]
      exact hhigh
    have hne : Cond.ne.holds ((afterInt B DISK q).flags.ofSub (afterInt B DISK q).regs.eax.low
        (afterInt B DISK q).regs.edx.high) = ((afterInt B DISK q).regs.eax.low != 0) := by
      rw [Cond.ne_ofSub, hdh]
    have ht' := ht.flags ((afterInt B DISK q).flags.ofSub (afterInt B DISK q).regs.eax.low
      (afterInt B DISK q).regs.edx.high)
    by_cases hal : (afterInt B DISK q).regs.eax.low = 0
    · refine leads_pass (hne.trans ?_) rfl rfl ht.real ht.intact (hbad ⟨hcf, hal⟩ _ ht' rfl)
      rw [hal]
      rfl
    · refine leads_jump (hne.trans (bne_iff_ne.2 hal)) rfl rfl ht.real ht.intact ?_
      exact hgood (fun hfails => hal hfails.2) _ ht'
  · have hcarry : Cond.carry.holds (afterInt B DISK q).flags = false := Bool.eq_false_iff.2 hcf
    refine leads_pass hcarry rfl rfl ht.real ht.intact ?_
    exact hgood (fun hfails => hcf hfails.1) _ ht

/-! ### Success -/

/-- `pop dx`. -/
theorem exec_popDx (hstack : StackAt 0x9000 a s) (ha : a + 2 ≤ 0x9000) (hreal : real pc = true) :
    exec I.toImage B.call pc (.pop .edx) s =
      some ⟨(s.withStack (a + 2) s.mem).setReg .edx
        (((s.withStack (a + 2) s.mem).regs.get .edx).setWord
          (load s.mem .word (BitVec.ofNat 32 a))),
        .inside (program.succ pc)⟩ := by
  have hpop := pop_eq (w := .word) hstack ha
  show (effect I.toImage B.call pc.label.bits (.pop .edx) s).map _ = _
  rw [bits_of_real hreal]
  show ((s.pop .word).map _).map _ = _
  rw [hpop]
  rfl

/-- A return to the address on top of the stack. -/
theorem leads_return {vs : List Word} (hi : (code pc.label)[pc.index]? = some .ret)
    (hreal : real pc = true) (hs : RealMode s) (hI : Intact I m₀ s.mem)
    (hstack : StackAt 0x9000 a s) (ha : a + 2 ≤ 0x9000)
    (hstacked : Stacked .word s.mem a ((I.addr back).setWidth 16 :: vs))
    (hvalid : back.index < (code back.label).length)
    (h : Leads I B m₀ Q (s.withStack (a + 2) s.mem) back) : Leads I B m₀ Q s pc :=
  until_ret (P := program) (w := .word) hi (bits_of_real hreal) (by decide)
    (running_of_real hI hreal) (RealMode.runs hs) ⟨hstack, ha, hstacked.1, hvalid⟩ h

/-- `mov dx, [KERNEL_OFFSET]`. -/
theorem exec_loadFirst (hs : RealMode s) :
    exec I.toImage B.call pc
        (.mov (.r16 .edx) (.from (.mem (.const (KERNEL_OFFSET.setWidth 32))))) s =
      some ⟨s.setReg .edx (s.regs.edx.setWord (load s.mem .word 0x1000)),
        .inside (program.succ pc)⟩ := by
  have hlinear : (Segment.real 0 false).linear 0x1000 2 = some 0x1000 := linear_real (by decide)
  show (((s.segs.ds.linear 0x1000 2).map (load s.mem .word)).bind fun v => _).map _ = _
  rw [hs.ds, hlinear]
  rfl

/-- The kernel has been read, and the processor is about to leave real mode. -/
structure Switching (I : SectorImage) (B : Bios ε) (s q t : State ε) : Prop where
  real : RealMode t
  intact : Intact I s.mem t.mem
  kernel : ∀ x, KernelMemory x → t.mem x = (afterInt B DISK q).mem x
  written : written t.requests = written s.requests ++ (greeting ++
    (hexText (load (afterInt B DISK q).mem .word 0x1000) ++ crLf))
  reads : reads t.requests = reads s.requests ++ [readRequest s.regs.edx.low]

/-- **The boot goes on** when the disk does not fail. -/
theorem leads_loaded (ht : AfterRead I B s q t)
    (hnext : ∀ u, Switching I B s q u → Leads I B s.mem Q u ⟨.switchToPm, 0⟩) :
    Leads I B s.mem Q t ⟨.diskLoadSuccess, 0⟩ := by
  refine leads_instr rfl rfl ht.real ht.intact (exec_popDx ht.stack (by decide) rfl) ?_
  have hpopped : StackAt 0x9000 0x8ffc (t.withStack 0x8ffc t.mem) :=
    ht.stack.withStack (by decide) _
  refine leads_return rfl rfl ht.real ht.intact (hpopped.setReg (by decide) _) (by decide)
    ht.stacked.2 (by decide) ?_
  have hstack : StackAt 0x9000 0x8ffe ((((t.withStack 0x8ffc t.mem).setReg .edx
      ((t.withStack 0x8ffc t.mem).regs.edx.setWord (load t.mem .word (BitVec.ofNat 32 0x8ffa)))
      ).withStack 0x8ffe t.mem).setReg .edx (((t.withStack 0x8ffc t.mem).setReg .edx
      ((t.withStack 0x8ffc t.mem).regs.edx.setWord (load t.mem .word (BitVec.ofNat 32 0x8ffa)))
      ).regs.edx.setWord (load t.mem .word 0x1000))) :=
    ((hpopped.setReg (by decide) _).withStack (by decide) _).setReg (by decide) _
  refine leads_instr rfl rfl ht.real ht.intact (exec_loadFirst ht.real) ?_
  refine leads_call (prints_printlnHex (load t.mem .word 0x1000)) rfl rfl (by decide) ht.real
    ht.intact hstack (by decide) (Register.word_setWord ..) fun u hu _ => ?_
  have hureal := hu.realMode ht.real
  have hIu := hu.intact ht.intact
  have hstacked : Stacked .word u.mem 0x8ffe [(I.addr ⟨.start, 7⟩).setWidth 16] := by
    refine ht.stacked.2.2.congr (by show 0x8ffe + 2 ≤ 2 ^ 32; omega) fun x hx => hu.frame.mem x ?_
    have hlow : 0x8ffe ≤ x.toNat := hx.1
    have hhigh : x.toNat < 0x8ffe + 2 := hx.2
    unfold Kept
    omega
  refine leads_return rfl rfl hureal hIu hu.stack (by decide) hstacked (by decide) ?_
  have htop := hu.stack.withStack (b := 0x9000) (by decide) u.mem
  refine leads_enter rfl rfl hureal hIu htop (by decide) (hnext _ ?_)
  have hframe : Frame (Kept 0x9000) (u.withStack 0x9000 u.mem)
      (called I.toImage ⟨.start, 7⟩ 0x9000 (u.withStack 0x9000 u.mem)) :=
    frame_called htop rfl (by decide)
  refine ⟨hframe.realMode hureal, hframe.intact hIu, fun x hx => ?_, ?_, ?_⟩
  · have hlow := hx.1
    have hhigh := hx.2
    refine (hframe.mem x (.inl (by omega))).trans ((hu.frame.mem x (.inl (by omega))).trans ?_)
    exact congrFun ht.mem x
  · show written u.requests = _
    rw [hu.wrote.written, ← ht.mem]
    show written t.requests ++ _ = _
    rw [ht.written, List.append_assoc]
  · show reads u.requests = _
    rw [hu.wrote.reads]
    exact ht.reads

/-! ### Failure -/

/-- What is printed when the disk has failed with the status `ah`. -/
def failText (ah : Byte) : List Byte :=
  ascii "Disk read error" ++ ascii ": " ++ (hexText (ah ++ (0 : Byte)) ++ crLf)

/-- The processor hangs behind the message. -/
structure Stuck (I : SectorImage) (B : Bios ε) (s q t : State ε) : Prop where
  real : RealMode t
  intact : Intact I s.mem t.mem
  written : written t.requests = written s.requests ++ (greeting ++
    failText (afterInt B DISK q).regs.eax.high)
  reads : reads t.requests = reads s.requests ++ [readRequest s.regs.edx.low]

/-- **The boot ends** when the disk fails. -/
theorem leads_failed (hL : I.Loaded s.mem) (ht : AfterRead I B s q t)
    (hah : t.regs.eax.high = (afterInt B DISK q).regs.eax.high)
    (hnext : ∀ u, Stuck I B s q u → Leads I B s.mem Q u ⟨.diskError, 9⟩) :
    Leads I B s.mem Q t ⟨.diskError, 2⟩ := by
  have ht1 : Since 0x8ffa t [] (t.setReg .ebx (t.regs.ebx.setWord
      ((I.data .diskErrorMsg).setWidth 16))) := (Since.refl ht.stack).congr rfl rfl rfl rfl rfl
  refine leads_instr rfl rfl ht.real ht.intact rfl ?_
  refine leads_call (prints_print (Data.text .diskErrorMsg)) rfl rfl (by decide) ht.real ht.intact
    ht1.stack (by decide) (stringAt_data hL ((ht1.intact ht.intact).of_frame
      (frame_called (I := I) ht1.stack rfl (by decide))) rfl (Register.word_setWord ..))
    fun u hu huw => ?_
  have hu' := ht1.trans hu
  have hu1 : Since 0x8ffa t (Data.text .diskErrorMsg) (u.setReg .ebx (u.regs.ebx.setWord
      ((I.data .diskErrorMsgCtx).setWidth 16))) := hu'.congr rfl rfl rfl rfl rfl
  refine leads_instr rfl rfl (hu'.realMode ht.real) (hu'.intact ht.intact) rfl ?_
  refine leads_call (prints_print (Data.text .diskErrorMsgCtx)) rfl rfl (by decide)
    (hu1.realMode ht.real) (hu1.intact ht.intact)
    hu1.stack (by decide) (stringAt_data hL ((hu1.intact ht.intact).of_frame
      (frame_called (I := I) hu1.stack rfl (by decide))) rfl (Register.word_setWord ..))
    fun v hv hvw => ?_
  have hv' := hu1.trans hv
  have hvreal := hv'.realMode ht.real
  have hIv := hv'.intact ht.intact
  refine leads_instr rfl rfl hvreal hIv rfl ?_
  refine leads_instr rfl rfl hvreal hIv rfl ?_
  have hax : v.regs.eax.word = t.regs.eax.word :=
    (hvw .eax (by decide)).trans (huw .eax (by decide))
  have hstatus : v.regs.eax.high = (afterInt B DISK q).regs.eax.high := by
    rw [← hah, ← Register.word_high, hax, Register.word_high]
  refine leads_call (prints_printlnHex ((afterInt B DISK q).regs.eax.high ++ (0 : Byte))) rfl rfl
    (by decide) hvreal hIv (hv.stack.congr rfl rfl) (by decide) ?_ fun w hw _ => ?_
  · rw [← hstatus]
    rfl
  have hall := hv'.wrote.trans ⟨hw.wrote.written, hw.wrote.reads⟩
  refine hnext w ⟨hw.realMode hvreal, hw.intact hIv, ?_, hall.reads.trans ht.reads⟩
  rw [hall.written, ht.written, List.append_assoc]
  rfl

end Boot
end DrewOS
