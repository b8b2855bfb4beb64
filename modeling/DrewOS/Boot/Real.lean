/-
# The boot sector in real mode

What every routine of `util.asm` can rely on and has to keep.  The stack lies below
`0x9000`, the sector in `0x7c00 .. 0x7e00`, and the BIOS uses at most 4 KiB of the
free stack; so as long as the stack pointer stays above `0x8e00`, a call of the BIOS
changes neither the sector nor what is on the stack (`Frame`, `leads_video`).

`Intact I m₀ m` is the invariant of the whole run: the sector is in memory as it was
loaded, but for `BOOT_DRIVE`.
-/

import DrewOS.Boot.Sector
import DrewOS.Console.Print
import DrewOS.X86.Routine

namespace DrewOS
namespace Boot

open ByteMem Transition X86 X86.Asm

variable {ε : Type}

/-- The sector is in memory as it was in `m₀`, but for `BOOT_DRIVE`. -/
def Intact (I : SectorImage) (m₀ m : Mem) : Prop :=
  ∀ x : Addr, 0x7c00 ≤ x.toNat → x.toNat < 0x7e00 → x ≠ I.data .bootDrive → m x = m₀ x

/-- Real mode, with `DS`, `ES` and `SS` zero. -/
structure RealSegs (g : Segs) (cr0 : Dword) : Prop where
  code : g.cs.code = true
  big : g.cs.big = false
  ds : g.ds = .real 0 false
  es : g.es = .real 0 false
  ss : g.ss = .real 0 false
  pe : cr0.getLsbD 0 = false

/-- The processor is in real mode. -/
abbrev RealMode (s : State ε) : Prop := RealSegs s.segs s.cr0

/-- Memory that calls leave alone when the stack pointer is `a`: the sector and what
lies below it, and the stack above `a`. -/
def Kept (a : ℕ) (x : Addr) : Prop :=
  (0x500 ≤ x.toNat ∧ x.toNat < 0x7e00) ∨ (a ≤ x.toNat ∧ x.toNat < 0x80000)

/-- From `s` to `t` the processor stays in its mode and the memory `K` is kept. -/
structure Frame (K : Addr → Prop) (s t : State ε) : Prop where
  segs : t.segs = s.segs
  cr0 : t.cr0 = s.cr0
  mem : ∀ x, K x → t.mem x = s.mem x

/-- The lower halves of the registers are the same, that of `ESP` apart. -/
def SameWords (s t : State ε) : Prop :=
  ∀ r, r ≠ .esp → (t.regs.get r).word = (s.regs.get r).word

/-- Between `s` and `t` a text has been written, and nothing has been asked of the disk. -/
structure Wrote (text : List Byte) (s t : State ε) : Prop where
  written : written t.requests = written s.requests ++ text
  reads : reads t.requests = reads s.requests

variable {K : Addr → Prop} {a b : ℕ} {s t u : State ε}

/-- The lower the stack pointer, the more is kept. -/
theorem Kept.mono (h : a ≤ b) {x : Addr} (hx : Kept b x) : Kept a x := by
  unfold Kept at *
  omega

theorem Frame.refl (s : State ε) : Frame K s s := ⟨rfl, rfl, fun _ _ => rfl⟩

/-- Two stretches of code that keep `K`, one behind the other. -/
theorem Frame.trans (h : Frame K s t) (h' : Frame K t u) : Frame K s u :=
  ⟨h'.segs.trans h.segs, h'.cr0.trans h.cr0, fun x hx => (h'.mem x hx).trans (h.mem x hx)⟩

/-- Code that keeps `K` keeps every part of it. -/
theorem Frame.mono {K' : Addr → Prop} (h : Frame K s t) (hK : ∀ x, K' x → K x) : Frame K' s t :=
  ⟨h.segs, h.cr0, fun x hx => h.mem x (hK x hx)⟩

/-- Code below `a` keeps what code below a higher `b` has to keep. -/
theorem Frame.kept_mono (h : Frame (Kept a) s t) (hab : a ≤ b) : Frame (Kept b) s t :=
  h.mono fun _ => Kept.mono hab

/-- In real mode 16-bit code can run. -/
theorem RealMode.runs (hs : RealMode s) : s.Runs .word := ⟨hs.code, hs.big⟩

/-- Within the frame the processor stays in real mode. -/
theorem Frame.realMode (h : Frame K s t) (hs : RealMode s) : RealMode t := by
  unfold RealMode
  rw [h.segs, h.cr0]
  exact hs

/-- Words that stay the same over two stretches stay the same over both. -/
theorem SameWords.trans (h : SameWords s t) (h' : SameWords t u) : SameWords s u :=
  fun r hr => (h' r hr).trans (h r hr)

/-- Without a request nothing is written. -/
theorem Wrote.silent (h : t.requests = s.requests) : Wrote [] s t :=
  ⟨by rw [h, List.append_nil], by rw [h]⟩

/-- What is written adds up. -/
theorem Wrote.trans {x y : List Byte} (h : Wrote x s t) (h' : Wrote y t u) : Wrote (x ++ y) s u :=
  ⟨by rw [h'.written, h.written, List.append_assoc], h'.reads.trans h.reads⟩

/-- Within the frame the sector stays intact. -/
theorem Frame.intact {I : SectorImage} {m₀ : Mem} (hf : Frame (Kept a) s t)
    (h : Intact I m₀ s.mem) : Intact I m₀ t.mem :=
  fun x hx hx' hd => (hf.mem x (.inl ⟨by omega, hx'⟩)).trans (h x hx hx' hd)

/-- Within the frame the sector stays intact. -/
theorem Intact.of_frame {I : SectorImage} {m₀ : Mem} (h : Intact I m₀ s.mem)
    (hf : Frame (Kept a) s t) : Intact I m₀ t.mem :=
  hf.intact h

variable {I : SectorImage} {B : Bios ε} {m₀ : Mem} {pc : Pc Label}
  {Q : State ε → Location Label → Prop}

/-! ### Runs -/

/-- Code that is never executed: `.unknown_digit`, `disk_nsect_error`, and the `jmp $`
behind the call of `switch_to_pm`, which does not return. -/
def dead (pc : Pc Label) : Bool :=
  pc.label = .unknownDigit || pc.label = .diskNsectError || pc = ⟨.start, 8⟩

/-- The code that is executed in real mode. -/
def real (pc : Pc Label) : Bool := pc.label.bits = .word && !dead pc

/-- What holds at every step: the sector is intact, and code of the sector is executed that
is not dead. -/
structure Running (I : SectorImage) (m₀ : Mem) (c : Config Label ε) : Prop where
  intact : Intact I m₀ c.state.mem
  live : ∃ pc, c.loc = .inside pc ∧ dead pc = false

/-- The run from `s` at `pc` comes to `Q`, and `Running` holds on the way. -/
def Leads (I : SectorImage) (B : Bios ε) (m₀ : Mem) (Q : State ε → Location Label → Prop)
    (s : State ε) (pc : Pc Label) : Prop :=
  Until (step I.toImage B.call) (Running I m₀) (fun c => Q c.state c.loc) ⟨s, .inside pc⟩

/-- The labels of the real-mode part are 16-bit code. -/
theorem bits_of_real (h : real pc = true) : pc.label.bits = .word :=
  of_decide_eq_true (Bool.and_eq_true_iff.1 h).1

/-- Code at a live place of an intact sector is running. -/
theorem running_at (hI : Intact I m₀ s.mem) (h : dead pc = false) : Running I m₀ ⟨s, .inside pc⟩ :=
  ⟨hI, pc, rfl, h⟩

/-- Code of the real-mode part is running while the sector is intact. -/
theorem running_of_real (hI : Intact I m₀ s.mem) (h : real pc = true) :
    Running I m₀ ⟨s, .inside pc⟩ :=
  running_at hI ((Bool.not_eq_true' _).mp (Bool.and_eq_true_iff.1 h).2)

/-- At a place of the real-mode part the code can run. -/
theorem RealMode.runs_at (hs : RealMode s) (hreal : real pc = true) :
    s.Runs (program.bits pc.label) := by
  show s.Runs pc.label.bits
  rw [bits_of_real hreal]
  exact RealMode.runs hs

/-- One instruction in real mode. -/
theorem leads_instr {i : Instr Label Data} {pc' : Pc Label}
    (hi : (code pc.label)[pc.index]? = some i) (hreal : real pc = true) (hs : RealMode s)
    (hI : Intact I m₀ s.mem) (hexec : exec I.toImage B.call pc i s = some ⟨t, .inside pc'⟩)
    (h : Leads I B m₀ Q t pc') : Leads I B m₀ Q s pc :=
  until_instr (P := program) hi (running_of_real hI hreal) (RealMode.runs_at hs hreal) hexec h

/-- A conditional jump that is taken. -/
theorem leads_jump {cond : Cond} {l : Label} (hcond : cond.holds s.flags = true)
    (hi : (code pc.label)[pc.index]? = some (.jcc cond l)) (hreal : real pc = true)
    (hs : RealMode s) (hI : Intact I m₀ s.mem) (h : Leads I B m₀ Q s ⟨l, 0⟩) :
    Leads I B m₀ Q s pc := by
  refine leads_instr hi hreal hs hI ?_ h
  show some (Config.mk s (.inside (if cond.holds s.flags then ⟨l, 0⟩ else program.succ pc))) = _
  rw [if_pos hcond]

/-- A conditional jump that is not taken. -/
theorem leads_pass {cond : Cond} {l : Label} (hcond : cond.holds s.flags = false)
    (hi : (code pc.label)[pc.index]? = some (.jcc cond l)) (hreal : real pc = true)
    (hs : RealMode s) (hI : Intact I m₀ s.mem) (h : Leads I B m₀ Q s (program.succ pc)) :
    Leads I B m₀ Q s pc := by
  refine leads_instr hi hreal hs hI ?_ h
  show some (Config.mk s (.inside (if cond.holds s.flags then ⟨l, 0⟩ else program.succ pc))) = _
  rw [hcond]
  rfl

/-! ### Operands in memory -/

theorem load_byte (m : Mem) (a : Addr) : load m .byte a = m a := by
  show BitVec.ofNat 8 ((m a).toNat + 256 * 0) = m a
  rw [Nat.mul_zero, Nat.add_zero, BitVec.ofNat_toNat, BitVec.setWidth_eq]

/-- A real-mode segment at 0 adds nothing to the offset. -/
theorem linear_real {off : Dword} {n : ℕ} (h : off.toNat + n ≤ 0x10000) :
    (Segment.real 0 false).linear off n = some off := by
  have hlimit : (Segment.real 0 false).limit.toNat = 0xffff := rfl
  have hbase : (Segment.real 0 false).base + off = off := BitVec.zero_add off
  rw [Segment.linear, hlimit, if_pos (by omega), hbase]

/-- `mov r, [bx]` with a register of 8 bits. -/
theorem read_at (hs : RealMode s) (r : Reg) :
    (Place.mem (.at r) : Place Data .byte).read I.toImage .word s =
      some (s.mem ((s.regs.get r).word.setWidth 32)) := by
  have hoff : ((s.regs.get r).word.setWidth 32).toNat + 1 ≤ 0x10000 := by
    rw [BitVec.toNat_setWidth]
    have := (s.regs.get r).word.isLt
    omega
  show (s.segs.ds.linear ((s.regs.get r).word.setWidth 32) 1).map (load s.mem .byte) = _
  rw [hs.ds, linear_real hoff]
  exact congrArg some (load_byte s.mem _)

/-! ### Calls of the BIOS -/

/-- What is known after a call of the BIOS that leaves the memory `K` alone. -/
structure Answered (K : Addr → Prop) (n : Byte) (a : ℕ) (s t : State ε) : Prop where
  frame : Frame K s t
  stack : StackAt 0x9000 a t
  ebx : t.regs.ebx.word = s.regs.ebx.word
  ecx : t.regs.ecx.word = s.regs.ecx.word
  edx : t.regs.edx.word = s.regs.edx.word
  requests : t.requests = s.requests ++
    [⟨n, s.regs.eax.word, s.regs.ebx.word, s.regs.ecx.word, s.regs.edx.word⟩]

/-- The memory that a call leaves alone. -/
theorem not_biosMemory {n : Byte} {x : Addr} {q : Service ε} {g : Segs}
    (htop : (stackTop g q).toNat = a) (ha : 0x8e00 ≤ a) (hx : Kept a x)
    (hbuf : n = DISK → x.toNat < (buffer g q).toNat ∨
      (buffer g q).toNat + 512 * q.regs.eax.low.toNat ≤ x.toNat) : ¬ BiosMemory n g q x := by
  unfold BiosMemory
  unfold Kept at hx
  rintro (h | h | h | ⟨hn, h⟩)
  · omega
  · omega
  · omega
  · have := hbuf hn
    omega

/-- The state in which a call of the BIOS returns. -/
def afterInt (B : Bios ε) (n : Byte) (s : State ε) : State ε :=
  let q := B.call n s.segs ⟨s.regs, s.flags, s.mem, s.env⟩
  { s with
    regs := q.regs
    flags := { q.flags with ifl := s.flags.ifl }
    mem := q.mem
    env := q.env
    requests := s.requests ++
      [⟨n, s.regs.eax.word, s.regs.ebx.word, s.regs.ecx.word, s.regs.edx.word⟩] }

@[simp] theorem afterInt_segs (B : Bios ε) (n : Byte) (s : State ε) :
    (afterInt B n s).segs = s.segs := rfl

theorem afterInt_regs (B : Bios ε) (n : Byte) (s : State ε) :
    (afterInt B n s).regs = (B.call n s.segs ⟨s.regs, s.flags, s.mem, s.env⟩).regs := rfl

/-- `int` calls the service and goes on behind it. -/
theorem exec_int (hs : RealMode s) (n : Byte) :
    exec I.toImage B.call pc (.int n) s = some ⟨afterInt B n s, .inside (program.succ pc)⟩ := by
  show (if s.cr0.getLsbD 0 then none else some (afterInt B n s)).map _ = _
  rw [hs.pe]
  rfl

/-- In real mode `SP` is the stack pointer. -/
theorem StackAt.esp (hs : RealMode s) (h : StackAt 0x9000 a s) :
    s.regs.esp.word.setWidth 32 = BitVec.ofNat 32 a := by
  have hsp := h.sp
  unfold State.spPlus at hsp
  have hbig : s.segs.ss.big = false := by rw [hs.ss]; rfl
  rw [hbig, if_neg (by decide)] at hsp
  have hzero : s.regs.esp.word + (0 : Dword).setWidth 16 = s.regs.esp.word := BitVec.add_zero _
  rwa [hzero] at hsp

/-- **A call of the BIOS**, whose buffer does not lie in the memory `K`. -/
theorem answered_int {n : Byte} (hn : n = VIDEO ∨ n = DISK) (hs : RealMode s)
    (hstack : StackAt 0x9000 a s) (ha : 0x8e00 ≤ a)
    (hK : ∀ x, K x → Kept a x ∧ (n = DISK → x.toNat < s.regs.ebx.word.toNat ∨
      s.regs.ebx.word.toNat + 512 * s.regs.eax.low.toNat ≤ x.toNat)) :
    Answered K n a s (afterInt B n s) := by
  have hesp := StackAt.esp hs hstack
  have htop : (stackTop s.segs ⟨s.regs, s.flags, s.mem, s.env⟩).toNat = a := by
    have hbase : s.segs.ss.base = 0 := by rw [hs.ss]; rfl
    unfold stackTop
    rw [hbase, hesp, zero_add_ofNat, BitVec.toNat_ofNat, Nat.mod_eq_of_lt hstack.lt]
  have hbuf : (buffer s.segs ⟨s.regs, s.flags, s.mem, s.env⟩).toNat = s.regs.ebx.word.toNat := by
    have hbase : s.segs.es.base = 0 := by rw [hs.es]; rfl
    have hzero : (0 : Addr) + s.regs.ebx.word.setWidth 32 = s.regs.ebx.word.setWidth 32 :=
      BitVec.zero_add _
    have := s.regs.ebx.word.isLt
    unfold buffer
    rw [hbase, hzero, BitVec.toNat_setWidth, Nat.mod_eq_of_lt (by omega)]
  refine ⟨⟨rfl, rfl, fun x hx => B.mem _ _ _ x hn ?_⟩, ?_, B.ebx _ _ _ hn, B.ecx _ _ _ hn,
    B.edx _ _ _ hn, rfl⟩
  · obtain ⟨hkept, hout⟩ := hK x hx
    refine not_biosMemory htop ha hkept fun hdisk => ?_
    rw [hbuf]
    exact hout hdisk
  · refine hstack.congr rfl ?_
    have hbig : s.segs.ss.big = false := by rw [hs.ss]; rfl
    have hword : (afterInt B n s).regs.esp.word = s.regs.esp.word := by
      rw [afterInt_regs]
      exact B.esp _ _ _ hn
    unfold State.spPlus
    rw [afterInt_segs, hbig, if_neg (by decide), if_neg (by decide), hword]

/-- What a call of the screen service writes. -/
theorem Answered.wrote (h : Answered K VIDEO a s t) :
    Wrote (if s.regs.eax.high = 0x0e then [s.regs.eax.low] else []) s t := by
  refine ⟨?_, ?_⟩
  · rw [h.requests, written_append]
    unfold written
    rw [List.filterMap_cons, Register.word_high, Register.word_low]
    by_cases hput : s.regs.eax.high = 0x0e
    · rw [if_pos ⟨rfl, hput⟩, if_pos hput]
      rfl
    · rw [if_neg fun hboth => hput hboth.2, if_neg hput]
      rfl
  · rw [h.requests, reads_append]
    exact List.append_nil _

/-- **The screen service.** -/
theorem leads_video (hi : (code pc.label)[pc.index]? = some (.int VIDEO))
    (hreal : real pc = true) (hs : RealMode s) (hstack : StackAt 0x9000 a s)
    (ha : 0x8e00 ≤ a) (hI : Intact I m₀ s.mem)
    (h : ∀ t, Answered (Kept a) VIDEO a s t →
      (s.regs.eax.high = 0x0e → t.regs.eax.high = 0x0e) → Leads I B m₀ Q t (program.succ pc)) :
    Leads I B m₀ Q s pc := by
  refine leads_instr hi hreal hs hI (exec_int hs VIDEO) (h _ ?_ fun hah => ?_)
  · exact answered_int (.inl rfl) hs hstack ha fun x hx => ⟨hx, fun hd => absurd hd (by decide)⟩
  · rw [afterInt_regs]
    exact B.ah _ _ hah

end Boot
end DrewOS
