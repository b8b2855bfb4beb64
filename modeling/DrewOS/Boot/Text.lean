/-
# The boot sector's output

`print`, `print_lf`, `println`, `clrscr`, `print_hex` and `println_hex` of `src/boot/util.asm`.
Each of them gives all registers back as it found them, and what it asks of the BIOS
depends on its argument alone (`Performs`).  `clrscr` asks for two things, to scroll the
whole screen away and to set the cursor (`performs_clrscr`); the others write a text
(`Prints`): `print` the string at `BX`, `print_hex` the four digits of `DX`.  The loop
of `print_hex` has a branch for a digit that is none; it is never taken
(`prints_printHex`).
-/

import DrewOS.Boot.Real
import DrewOS.Number.Numeral

namespace DrewOS
namespace Boot

open ByteMem Transition X86 X86.Asm
open Printing (HoldsString)

variable {ε : Type}

/-- Code has come from `s` to `t`: its stack pointer is `a`, it has kept what calls keep,
and it has written a text. -/
structure Since (a : ℕ) (s : State ε) (text : List Byte) (t : State ε) : Prop where
  stack : StackAt 0x9000 a t
  frame : Frame (Kept a) s t
  wrote : Wrote text s t

/-- A stretch of code that was entered in `s` has come to `pc`. -/
structure Ran (a : ℕ) (pc : Pc Label) (s : State ε) (text : List Byte) (t : State ε)
    (loc : Location Label) : Prop extends Since a s text t where
  loc : loc = .inside pc

/-- A routine that was entered in `s`, with its return address at `a`, is back. -/
structure Returned (a : ℕ) (back : Pc Label) (s : State ε) (text : List Byte) (t : State ε)
    (loc : Location Label) : Prop extends Since (a + 2) s text t where
  loc : loc = .inside back
  words : SameWords s t

/-- A routine that was entered in `s`, with its return address at `a`, is back with the
registers as they were. -/
structure CameBack (a : ℕ) (back : Pc Label) (s t : State ε) (loc : Location Label) : Prop where
  stack : StackAt 0x9000 (a + 2) t
  frame : Frame (Kept (a + 2)) s t
  loc : loc = .inside back
  words : SameWords s t

/-- **What a routine does**: it comes back, having used at most `need` bytes of stack, and
`P` holds of where it was entered and of all that has been asked of the BIOS by then. -/
def Performs (I : SectorImage) (B : Bios ε) (m₀ : Mem) (f : Label) (need : ℕ)
    (Pre : State ε → Prop) (P : State ε → List Request → Prop) : Prop :=
  ∀ s a back, RealMode s → Intact I m₀ s.mem → Entered I.toImage .word 0x9000 a back s →
    0x8e00 + need ≤ a → Pre s →
      Leads I B m₀ (fun t loc => CameBack a back s t loc ∧ P s t.requests) s ⟨f, 0⟩

/-- **What a routine that prints does**: it comes back having written a text. -/
def Prints (I : SectorImage) (B : Bios ε) (m₀ : Mem) (f : Label) (need : ℕ)
    (Pre : State ε → Prop) (text : List Byte) : Prop :=
  ∀ s a back, RealMode s → Intact I m₀ s.mem → Entered I.toImage .word 0x9000 a back s →
    0x8e00 + need ≤ a → Pre s → Leads I B m₀ (Returned a back s text) s ⟨f, 0⟩

variable {I : SectorImage} {B : Bios ε} {m₀ : Mem} {pc back : Pc Label} {a n : ℕ}
  {s t u : State ε} {Q : State ε → Location Label → Prop}

/-! ### Stretches of code -/

theorem Since.refl (h : StackAt 0x9000 a s) : Since a s [] s :=
  ⟨h, Frame.refl s, .silent rfl⟩

/-- What two stretches of a routine have written, one behind the other. -/
theorem Since.trans {x y : List Byte} (h : Since a s x t) (h' : Since a t y u) :
    Since a s (x ++ y) u :=
  ⟨h'.stack, h.frame.trans h'.frame, h.wrote.trans h'.wrote⟩

/-- What only changes registers and flags. -/
theorem Since.congr {x : List Byte} (h : Since a s x t) (hsegs : u.segs = t.segs)
    (hcr0 : u.cr0 = t.cr0) (hsp : u.spPlus 0 = t.spPlus 0) (hmem : u.mem = t.mem)
    (hreqs : u.requests = t.requests) : Since a s x u :=
  ⟨h.stack.congr (by rw [hsegs]) hsp, h.frame.trans ⟨hsegs, hcr0, fun _ _ => by rw [hmem]⟩,
    ⟨by rw [hreqs, h.wrote.written], by rw [hreqs, h.wrote.reads]⟩⟩

/-- The stretch stays in real mode. -/
theorem Since.realMode {x : List Byte} (h : Since a s x t) (hs : RealMode s) : RealMode t :=
  h.frame.realMode hs

/-- The stretch leaves the sector intact. -/
theorem Since.intact {x : List Byte} (h : Since a s x t) (hI : Intact I m₀ s.mem) :
    Intact I m₀ t.mem :=
  hI.of_frame h.frame

/-- A character has been written since `t`. -/
structure Put (a : ℕ) (s : State ε) (text : List Byte) (t u : State ε) : Prop
    extends Since a s (text ++ [t.regs.eax.low]) u where
  ah : u.regs.eax.high = 0x0e
  ebx : u.regs.ebx.word = t.regs.ebx.word
  ecx : u.regs.ecx.word = t.regs.ecx.word
  edx : u.regs.edx.word = t.regs.edx.word

/-- **Writing the character in `AL`.** -/
theorem leads_put {text : List Byte} (hi : (code pc.label)[pc.index]? = some (.int VIDEO))
    (hreal : real pc = true) (hs : RealMode s) (hI : Intact I m₀ s.mem) (ha : 0x8e00 ≤ a)
    (ht : Since a s text t) (hah : t.regs.eax.high = 0x0e)
    (h : ∀ u, Put a s text t u → Leads I B m₀ Q u (program.succ pc)) : Leads I B m₀ Q t pc := by
  refine leads_video hi hreal (ht.realMode hs) ht.stack ha (ht.intact hI) fun u hu huah => ?_
  refine h u ⟨⟨hu.stack, ht.frame.trans hu.frame, ?_⟩, huah hah, hu.ebx, hu.ecx, hu.edx⟩
  have hwrote := hu.wrote
  rw [if_pos hah] at hwrote
  exact ht.wrote.trans hwrote

/-- Calling a routine changes the two bytes of its return address only. -/
theorem frame_called (hstack : StackAt 0x9000 a s) (hreal : real pc = true)
    (ha : 0x8e00 + 2 ≤ a) : Frame (Kept a) s (called I.toImage pc a s) := by
  have hle := hstack.le
  refine ⟨rfl, rfl, fun x hx => ?_⟩
  show store s.mem pc.label.bits _ _ x = s.mem x
  refine store_of_ge _ _ ?_
  have hbytes : (program.bits pc.label).bytes = 2 := by
    show pc.label.bits.bytes = 2
    rw [bits_of_real hreal]
    rfl
  have hat : (BitVec.ofNat 32 (a - 2)).toNat = a - 2 := by bv_omega
  unfold Kept at hx
  rw [hbytes, bits_of_real hreal, BitVec.toNat_sub, hat]
  show 2 ≤ _
  omega

/-- **A call.** -/
theorem leads_enter {f : Label} (hi : (code pc.label)[pc.index]? = some (.call f))
    (hreal : real pc = true) (hs : RealMode s) (hI : Intact I m₀ s.mem)
    (hstack : StackAt 0x9000 a s) (ha : 0x8e00 + 2 ≤ a)
    (h : Leads I B m₀ Q (called I.toImage pc a s) ⟨f, 0⟩) : Leads I B m₀ Q s pc := by
  have hbytes : (program.bits pc.label).bytes = 2 := by
    show pc.label.bits.bytes = 2
    rw [bits_of_real hreal]
    rfl
  exact until_call (P := program) hi (running_of_real hI hreal) (RealMode.runs_at hs hreal) hstack
    (by omega) h

/-- The routine called is entered, with its return address on the stack. -/
theorem entered_real (hreal : real pc = true)
    (hvalid : (program.succ pc).index < (code (program.succ pc).label).length)
    (hstack : StackAt 0x9000 a s) (ha : 2 ≤ a) :
    Entered I.toImage .word 0x9000 (a - 2) (program.succ pc) (called I.toImage pc a s) := by
  have hwidth : program.bits pc.label = .word := bits_of_real hreal
  have hbytes : (program.bits pc.label).bytes = 2 := by
    rw [hwidth]
    rfl
  have hentered := entered_called (I := I.toImage) _ hstack (hbytes ▸ ha) hvalid
  rwa [hbytes, hwidth] at hentered

/-- **A call of a routine that prints.** -/
theorem leads_call {f : Label} {Pre : State ε → Prop} {text : List Byte}
    (hf : Prints I B m₀ f n Pre text) (hi : (code pc.label)[pc.index]? = some (.call f))
    (hreal : real pc = true)
    (hvalid : (program.succ pc).index < (code (program.succ pc).label).length) (hs : RealMode s)
    (hI : Intact I m₀ s.mem) (hstack : StackAt 0x9000 a s) (ha : 0x8e00 + (n + 2) ≤ a)
    (hpre : Pre (called I.toImage pc a s))
    (h : ∀ t, Since a s text t → SameWords s t → Leads I B m₀ Q t (program.succ pc)) :
    Leads I B m₀ Q s pc := by
  have hentered := entered_real (I := I) hreal hvalid hstack (by omega)
  have hframe : Frame (Kept a) s (called I.toImage pc a s) :=
    frame_called hstack hreal (by omega)
  refine leads_enter hi hreal hs hI hstack (by omega) ?_
  refine (hf _ (a - 2) _ (hframe.realMode hs) (hI.of_frame hframe) hentered (by omega)
    hpre).trans ?_
  rintro ⟨t, loc⟩ ⟨⟨htstack, htframe, htwrote⟩, hloc, hwords⟩
  obtain rfl : loc = .inside (program.succ pc) := hloc
  rw [Nat.sub_add_cancel (by omega)] at htstack htframe
  refine h t ⟨htstack, hframe.trans htframe, ⟨htwrote.written, htwrote.reads⟩⟩
    fun r hr => (hwords r hr).trans ?_
  exact congrArg Register.word (withStack_reg s _ _ hr)

/-- **The return of a routine** that has kept the registers. -/
theorem leads_back (hi : (code pc.label)[pc.index]? = some .ret) (hreal : real pc = true)
    (hs : RealMode s) (hI : Intact I m₀ s.mem) (h : Entered I.toImage .word 0x9000 a back s)
    (hstack : StackAt 0x9000 a t) (hframe : Frame (Kept a) s t) (hwords : SameWords s t) :
    Leads I B m₀ (fun u loc => CameBack a back s u loc ∧ u.requests = t.requests) t pc := by
  have hroom : a + 2 ≤ 0x9000 := h.room
  -- the return address is still there
  have htop : load t.mem .word (BitVec.ofNat 32 a) =
      (I.addr back).setWidth Width.word.bits := by
    rw [← h.top]
    refine load_congr_within (by show a + 2 ≤ _; omega) fun x hx => hframe.mem x ?_
    have hlow : a ≤ x.toNat := hx.1
    have hhigh : x.toNat < a + 2 := hx.2
    unfold Kept
    omega
  refine until_ret (P := program) (w := .word) hi (bits_of_real hreal) (by decide)
    (running_of_real (hI.of_frame hframe) hreal)
    (RealMode.runs (hframe.realMode hs)) ⟨hstack, hroom, htop, h.valid⟩ (.here ?_)
  refine ⟨⟨hstack.withStack hroom _, ?_, rfl, fun r hr => ?_⟩, rfl⟩
  · exact (hframe.kept_mono (Nat.le_add_right a 2)).trans ⟨rfl, rfl, fun _ _ => rfl⟩
  · rw [← hwords r hr]
    exact congrArg Register.word (withStack_reg t _ _ hr)

/-- At its `ret` a routine returns to where it was called. -/
theorem leads_ret {text : List Byte} (hi : (code pc.label)[pc.index]? = some .ret)
    (hreal : real pc = true) (hs : RealMode s) (hI : Intact I m₀ s.mem)
    (h : Entered I.toImage .word 0x9000 a back s) (ht : Since a s text t) (hwords : SameWords s t) :
    Leads I B m₀ (Returned a back s text) t pc := by
  refine Until.post ?_ (leads_back hi hreal hs hI h ht.stack ht.frame hwords)
  rintro ⟨u, loc⟩ ⟨hu, hreqs⟩
  have hreqs : u.requests = t.requests := hreqs
  exact ⟨⟨hu.stack, hu.frame, by rw [hreqs, ht.wrote.written], by rw [hreqs, ht.wrote.reads]⟩,
    hu.loc, hu.words⟩

/-- Where all that is known of the requests is a text, the routine prints it. -/
theorem Performs.prints {f : Label} {Pre : State ε → Prop} {P : State ε → List Request → Prop}
    {text : List Byte} (h : Performs I B m₀ f n Pre P)
    (hP : ∀ s rs, P s rs → written rs = written s.requests ++ text ∧ reads rs = reads s.requests) :
    Prints I B m₀ f n Pre text := by
  intro s a back hs hI hentered ha hpre
  refine Until.post ?_ (h s a back hs hI hentered ha hpre)
  rintro ⟨t, loc⟩ ⟨ht, hreqs⟩
  obtain ⟨hwritten, hreads⟩ := hP s t.requests hreqs
  exact ⟨⟨ht.stack, ht.frame, ⟨hwritten, hreads⟩⟩, ht.loc, ht.words⟩

/-- The state between `pusha` and `popa`, and where it started. -/
structure Saved (a : ℕ) (s t : State ε) : Prop where
  real : RealMode t
  stack : StackAt 0x9000 a t
  words : SameWords s t
  frame : Frame (Kept (a + 16)) s t
  requests : t.requests = s.requests

/-- Behind `pusha` the registers are saved on the stack. -/
theorem saved_pushedAll (hs : RealMode s) (hstack : StackAt 0x9000 a s) (ha : 0x8e00 + 16 ≤ a) :
    Saved (a - 16) s (pushedAll .word a s) := by
  have hle := hstack.le
  have hroom : Width.word.bytes * 8 ≤ a := le_trans (by decide) ha
  have hframe : Frame (Kept (a - 16 + 16)) s (pushedAll .word a s) := by
    refine ⟨rfl, rfl, fun x hx => pushedAll_mem_of_not_within hstack hroom ?_⟩
    unfold Kept at hx
    rintro ⟨hlow, hhigh⟩
    have hbytes : Width.word.bytes * 8 = 16 := rfl
    omega
  exact ⟨hframe.realMode hs, hstack.withStack (by omega) _,
    fun r hr => congrArg Register.word (withStack_reg s _ _ hr), hframe, rfl⟩

/-- What keeps the stack above the saved registers keeps them. -/
theorem stacked_savedRegs (hstack : StackAt 0x9000 a s) (hlow : 16 ≤ a) (hhigh : a ≤ 0x9000)
    (h : Frame (Kept (a - 16)) (pushedAll .word a s) u) :
    Stacked .word u.mem (a - 16) (savedRegs .word s) := by
  have hbytes : Width.word.bytes * 8 = 16 := rfl
  refine (stacked_pushedAll hstack (by omega)).congr ?_ fun x hx => h.mem x ?_
  · show a - 16 + 16 ≤ 2 ^ 32
    omega
  · have hfrom : a - 16 ≤ x.toNat := hx.1
    have hto : x.toNat < a - 16 + 16 := hx.2
    unfold Kept
    omega

/-- **A routine between `pusha` and `popa`.**  What the part in between does to the
registers does not matter. -/
theorem performs_saved {f g : Label} {k : ℕ} {Pre : State ε → Prop}
    {P : State ε → List Request → Prop}
    (hf : (code f)[0]? = some .pusha) (hfreal : real ⟨f, 0⟩ = true)
    (hpopa : (code g)[k]? = some .popa) (hret : (code g)[k + 1]? = some .ret)
    (hgreal : real ⟨g, k⟩ = true) (hgreal' : real ⟨g, k + 1⟩ = true)
    (hsucc : program.succ ⟨g, k⟩ = ⟨g, k + 1⟩)
    (body : ∀ s t a, Pre s → Saved a s t → Intact I m₀ t.mem → 0x8e00 + n ≤ a →
      Leads I B m₀ (fun u loc => loc = .inside ⟨g, k⟩ ∧ StackAt 0x9000 a u ∧
        Frame (Kept a) t u ∧ P s u.requests) t (program.succ ⟨f, 0⟩)) :
    Performs I B m₀ f (n + 16) Pre P := by
  intro s a back hs hI hentered ha hpre
  have hstack := hentered.stack
  have hroom : a + 2 ≤ 0x9000 := hentered.room
  have hbytes : Width.word.bytes * 8 = 16 := rfl
  have hsaved := saved_pushedAll hs hstack (by omega)
  have hI' : Intact I m₀ (pushedAll .word a s).mem := hI.of_frame hsaved.frame
  refine until_pusha (P := program) hf (bits_of_real hfreal) (running_of_real hI hfreal)
    (RealMode.runs hs) hstack (by omega) ?_
  refine (body s _ (a - 16) hpre hsaved hI' (by omega)).trans ?_
  rintro ⟨u, loc⟩ ⟨hloc, hustack, huframe, hreqs⟩
  obtain rfl : loc = .inside ⟨g, k⟩ := hloc
  have huframe : Frame (Kept (a - 16)) (pushedAll .word a s) u := huframe
  have hregs : Stacked .word u.mem (a - 16) (savedRegs .word s) :=
    stacked_savedRegs hstack (by omega) (by omega) huframe
  have hframe : Frame (Kept a) s u := by
    refine (hsaved.frame.mono fun x hx => ?_).trans (huframe.kept_mono (by omega))
    rwa [show a - 16 + 16 = a by omega]
  have hureal := hframe.realMode hs
  refine until_popa (P := program) s hpopa (bits_of_real hgreal)
    (running_of_real (hI'.of_frame huframe) hgreal) (RealMode.runs hureal)
    hustack (by omega) hregs ?_
  rw [hsucc, hbytes, show a - 16 + 16 = a by omega]
  have hstack' := (hustack.restore (w := .word) (fun r => (s.regs.get r).read .word)
    allRegs.reverse).withStack (b := a) (by omega) u.mem
  refine Until.post ?_ (leads_back hret hgreal' hs hI hentered hstack'
    ⟨hframe.segs, hframe.cr0, hframe.mem⟩ fun r hr => ?_)
  · rintro ⟨v, loc⟩ ⟨hv, hvreqs⟩
    have hvreqs : v.requests = u.requests := hvreqs
    exact ⟨hv, hvreqs ▸ hreqs⟩
  rw [withStack_reg _ _ _ hr]
  cases r with
  | esp => exact absurd rfl hr
  | _ => exact Register.word_setWord ..

/-- The same for a routine that prints. -/
theorem prints_saved {f g : Label} {k : ℕ} {Pre : State ε → Prop} {text : List Byte}
    (hf : (code f)[0]? = some .pusha) (hfreal : real ⟨f, 0⟩ = true)
    (hpopa : (code g)[k]? = some .popa) (hret : (code g)[k + 1]? = some .ret)
    (hgreal : real ⟨g, k⟩ = true) (hgreal' : real ⟨g, k + 1⟩ = true)
    (hsucc : program.succ ⟨g, k⟩ = ⟨g, k + 1⟩)
    (body : ∀ s t a, Pre s → Saved a s t → Intact I m₀ t.mem → 0x8e00 + n ≤ a →
      Leads I B m₀ (Ran a ⟨g, k⟩ t text) t (program.succ ⟨f, 0⟩)) :
    Prints I B m₀ f (n + 16) Pre text := by
  refine Performs.prints (P := fun s rs => written rs = written s.requests ++ text ∧
    reads rs = reads s.requests)
    (performs_saved hf hfreal hpopa hret hgreal hgreal' hsucc ?_) fun _ _ => id
  intro s t a hpre ht hI ha
  refine Until.post ?_ (body s t a hpre ht hI ha)
  rintro ⟨u, loc⟩ ⟨hu, hloc⟩
  exact ⟨hloc, hu.stack, hu.frame, by rw [hu.wrote.written, ht.requests],
    by rw [hu.wrote.reads, ht.requests]⟩

/-! ### `print` -/

/-- The string `cs` lies at `BX`, below the end of the sector. -/
structure StringAt (cs : List Byte) (s : State ε) : Prop where
  holds : HoldsString s.mem (s.regs.ebx.word.setWidth 32) cs
  ge : 0x500 ≤ s.regs.ebx.word.toNat
  lt : s.regs.ebx.word.toNat + cs.length < 0x7e00

/-- A string is where its bytes are. -/
theorem holdsString_congr {m m' : Mem} {p : Addr} {cs : List Byte} (h : HoldsString m p cs)
    (hmem : ∀ i ≤ cs.length, m' (p + BitVec.ofNat 32 i) = m (p + BitVec.ofNat 32 i)) :
    HoldsString m' p cs := by
  have hhead := hmem 0 (Nat.zero_le _)
  rw [add_ofNat_zero] at hhead
  induction cs generalizing p with
  | nil => exact hhead.trans h
  | cons c cs ih =>
    refine ⟨hhead.trans h.1, h.2.1, ?_⟩
    have hnext : ∀ i ≤ cs.length,
        m' (p + 1 + BitVec.ofNat 32 i) = m (p + 1 + BitVec.ofNat 32 i) := by
      intro i hi
      have hone : p + 1 + BitVec.ofNat 32 i = p + BitVec.ofNat 32 (i + 1) := by
        rw [Nat.add_comm i]
        exact add_ofNat_add p 1 i
      rw [hone]
      exact hmem (i + 1) (Nat.succ_le_succ hi)
    have hhead' := hnext 0 (Nat.zero_le _)
    rw [add_ofNat_zero] at hhead'
    exact ih h.2.2 hnext hhead'

/-- A string out of reach of the stack stays. -/
theorem StringAt.of_frame {cs : List Byte} (h : StringAt cs s) (hframe : Frame (Kept a) s t)
    (hbx : t.regs.ebx.word = s.regs.ebx.word) : StringAt cs t := by
  have hge := h.ge
  have hlt := h.lt
  refine ⟨?_, hbx ▸ hge, hbx ▸ hlt⟩
  rw [hbx]
  refine holdsString_congr h.holds fun i hi => hframe.mem _ (.inl ?_)
  have hat : (s.regs.ebx.word.setWidth 32 + BitVec.ofNat 32 i).toNat =
      s.regs.ebx.word.toNat + i := by
    have := s.regs.ebx.word.isLt
    rw [BitVec.toNat_add, BitVec.toNat_setWidth, BitVec.toNat_ofNat]
    omega
  rw [hat]
  omega

/-- The rest of the string, after `inc bx`. -/
theorem StringAt.next {c : Byte} {cs : List Byte} (h : StringAt (c :: cs) s) :
    StringAt cs (s.setReg .ebx (s.regs.ebx.setWord (s.regs.ebx.word + 1))) := by
  have hge := h.ge
  have hlt := h.lt
  rw [List.length_cons] at hlt
  have hword : (s.setReg .ebx (s.regs.ebx.setWord (s.regs.ebx.word + 1))).regs.ebx.word =
      s.regs.ebx.word + 1 := Register.word_setWord ..
  have hnat : (s.regs.ebx.word + 1).toNat = s.regs.ebx.word.toNat + 1 := by bv_omega
  have hwide : (s.regs.ebx.word + 1).setWidth 32 = s.regs.ebx.word.setWidth 32 + 1 := by bv_omega
  refine ⟨?_, by rw [hword]; omega, by rw [hword]; omega⟩
  rw [hword, hwide]
  exact h.holds.2.2

/-- `mov al, [bx]`. -/
theorem exec_loadAl (hs : RealMode s) (hreal : real pc = true) :
    exec I.toImage B.call pc (.mov (.low .eax) (.from (.mem (.at .ebx)))) s =
      some ⟨s.setReg .eax { s.regs.eax with low := s.mem (s.regs.ebx.word.setWidth 32) },
        .inside (program.succ pc)⟩ := by
  have hread := read_at (I := I) hs .ebx
  show ((((Place.mem (.at .ebx) : Place Data .byte).read I.toImage pc.label.bits s).bind fun v =>
    (Place.low .eax : Place Data .byte).write I.toImage pc.label.bits s v).map _) = _
  rw [bits_of_real hreal, hread]
  rfl

/-- **The loop of `print`** writes the string at `BX`, character by character. -/
theorem leads_printStart {cs : List Byte} (hs : RealMode s) (hstack : StackAt 0x9000 a s)
    (hI : Intact I m₀ s.mem) (ha : 0x8e00 ≤ a) (hah : s.regs.eax.high = 0x0e)
    (hcs : StringAt cs s) :
    Leads I B m₀ (Ran a ⟨.printEnd, 0⟩ s cs) s ⟨.printStart, 0⟩ := by
  induction cs generalizing s with
  | nil =>
    have hnul : s.mem (s.regs.ebx.word.setWidth 32) = 0 := hcs.holds
    refine leads_instr rfl rfl hs hI (exec_loadAl hs rfl) ?_
    refine leads_instr rfl rfl hs hI rfl ?_
    refine leads_jump ?_ rfl rfl hs hI (.here ⟨(Since.refl hstack).congr rfl rfl rfl rfl rfl, rfl⟩)
    refine (Cond.e_ofSub ..).trans (beq_iff_eq.2 ?_)
    exact hnul
  | cons c cs ih =>
    obtain ⟨hc, hne, hrest⟩ := hcs.holds
    refine leads_instr rfl rfl hs hI (exec_loadAl hs rfl) ?_
    refine leads_instr rfl rfl hs hI rfl ?_
    refine leads_pass ?_ rfl rfl hs hI ?_
    · refine (Cond.e_ofSub ..).trans (beq_eq_false_iff_ne.2 ?_)
      show s.mem (s.regs.ebx.word.setWidth 32) ≠ 0
      rw [hc]
      exact hne
    refine leads_put rfl rfl hs hI ha ((Since.refl hstack).congr rfl rfl rfl rfl rfl) hah
      fun t ht => ?_
    have htreal := ht.realMode hs
    have hIt := ht.intact hI
    refine leads_instr rfl rfl htreal hIt rfl ?_
    refine leads_instr rfl rfl htreal hIt rfl ?_
    refine Until.post ?_ (ih htreal (ht.stack.congr rfl rfl) hIt ht.ah ?_)
    · rintro ⟨u, loc⟩ ⟨hu, hloc⟩
      have hnext : Since a s ([s.mem (s.regs.ebx.word.setWidth 32)] ++ cs) u := by
        refine Since.trans ?_ hu
        exact ht.toSince.congr rfl rfl rfl rfl rfl
      rw [hc] at hnext
      exact ⟨hnext, hloc⟩
    · refine hcs.next.of_frame (a := a) ⟨ht.frame.segs, ht.frame.cr0, ht.frame.mem⟩ ?_
      show (t.regs.ebx.setWord (t.regs.ebx.word + 1)).word =
        (s.regs.ebx.setWord (s.regs.ebx.word + 1)).word
      rw [Register.word_setWord, Register.word_setWord, ht.ebx]
      rfl

/-- **`print`** writes the string at `BX`. -/
theorem prints_print (cs : List Byte) : Prints I B m₀ .print 16 (StringAt cs) cs := by
  refine prints_saved (g := .printEnd) (k := 0) (n := 0) rfl rfl rfl rfl rfl rfl rfl ?_
  intro s t a hcs ht hI ha
  have hcs' : StringAt cs t := hcs.of_frame ht.frame (ht.words .ebx (by decide))
  refine leads_instr rfl rfl ht.real hI rfl ?_
  refine Until.post ?_ (leads_printStart ht.real (ht.stack.congr rfl rfl) hI ha rfl
    ⟨hcs'.holds, hcs'.ge, hcs'.lt⟩)
  rintro ⟨u, loc⟩ ⟨⟨hstack, hframe, hwrote⟩, hloc⟩
  exact ⟨⟨hstack, ⟨hframe.segs, hframe.cr0, hframe.mem⟩, ⟨hwrote.written, hwrote.reads⟩⟩, hloc⟩

/-! ### `print_lf`, `println` and `clrscr` -/

/-- Carriage return and line feed. -/
def crLf : List Byte := [0x0d, 0x0a]

/-- **`print_lf`.** -/
theorem prints_printLf : Prints I B m₀ .printLf 16 (fun _ : State ε => True) crLf := by
  refine prints_saved (g := .printLf) (k := 6) (n := 0) rfl rfl rfl rfl rfl rfl rfl ?_
  intro s t a _ ht hI ha
  refine leads_instr rfl rfl ht.real hI rfl ?_
  refine leads_instr rfl rfl ht.real hI rfl ?_
  refine leads_put rfl rfl ht.real hI ha ((Since.refl ht.stack).congr rfl rfl rfl rfl rfl) rfl
    fun u hu => ?_
  refine leads_instr rfl rfl (hu.realMode ht.real) (hu.intact hI) rfl ?_
  refine leads_put rfl rfl ht.real hI ha (hu.toSince.congr rfl rfl rfl rfl rfl) hu.ah
    fun v hv => ?_
  exact .here ⟨hv.toSince, rfl⟩

/-- **`println`** writes the string at `BX` and goes to the next line. -/
theorem prints_println (cs : List Byte) :
    Prints I B m₀ .println 34 (StringAt cs) (cs ++ crLf) := by
  refine prints_saved (g := .println) (k := 3) (n := 18) rfl rfl rfl rfl rfl rfl rfl ?_
  intro s t a hcs ht hI ha
  have hcs' : StringAt cs t := hcs.of_frame ht.frame (ht.words .ebx (by decide))
  refine leads_call (prints_print cs) rfl rfl (by decide) ht.real hI ht.stack ha
    (hcs'.of_frame (frame_called ht.stack rfl (by omega)) rfl) fun u hu _ => ?_
  refine leads_call prints_printLf rfl rfl (by decide) (hu.realMode ht.real) (hu.intact hI)
    hu.stack ha trivial fun v hv _ => ?_
  exact .here ⟨hu.trans hv, rfl⟩

/-! ### `clrscr` -/

/-- What `clrscr` asks of the screen service, `bl` being the `BL` of its caller: to scroll
the rows and columns from `CX` to `DX` away, filling them with the attribute in `BH`, and
to set the cursor of page 0 to the first row and column. -/
def clearRequests (bl : Byte) : List Request :=
  [⟨VIDEO, 0x0600, (0x07 : Byte) ++ bl, 0x0000, 0x184f⟩, ⟨VIDEO, 0x0200, 0x0000, 0x0000, 0x0000⟩]

/-- They write no character, and none is for the disk. -/
theorem written_clearRequests (bl : Byte) :
    written (clearRequests bl) = [] ∧ reads (clearRequests bl) = [] := by
  constructor
  · unfold written clearRequests
    decide +revert
  · unfold reads clearRequests
    decide +revert

/-- **`clrscr`** asks to scroll the whole screen away and to set the cursor, and for nothing
else. -/
theorem performs_clrscr : Performs I B m₀ .clrscr 16 (fun _ : State ε => True)
    fun s rs => rs = s.requests ++ clearRequests s.regs.ebx.low := by
  refine performs_saved (g := .clrscr) (k := 15) (n := 0) rfl rfl rfl rfl rfl rfl rfl ?_
  intro s t a _ ht hI ha
  have hbl : t.regs.ebx.low = s.regs.ebx.low := by
    have hword : t.regs.ebx.word = s.regs.ebx.word := ht.words .ebx (by decide)
    rw [← Register.word_low, hword, Register.word_low]
  refine leads_instr rfl rfl ht.real hI rfl ?_
  refine leads_instr rfl rfl ht.real hI rfl ?_
  refine leads_instr rfl rfl ht.real hI rfl ?_
  refine leads_instr rfl rfl ht.real hI rfl ?_
  refine leads_instr rfl rfl ht.real hI rfl ?_
  refine leads_instr rfl rfl ht.real hI rfl ?_
  refine leads_video rfl rfl ht.real (ht.stack.congr rfl rfl) ha hI fun u hu _ => ?_
  have hfirst : u.requests = s.requests ++
      [⟨VIDEO, 0x0600, (0x07 : Byte) ++ s.regs.ebx.low, 0x0000, 0x184f⟩] := by
    rw [hu.requests]
    show t.requests ++ [⟨VIDEO, (0x06 : Byte) ++ (0x00 : Byte), (0x07 : Byte) ++ t.regs.ebx.low,
      (t.regs.ecx.setWord 0).word, (24 : Byte) ++ (79 : Byte)⟩] = _
    rw [ht.requests, hbl, Register.word_setWord]
    rfl
  have hureal := hu.frame.realMode ht.real
  have hIu := hI.of_frame (s := t) (t := u) ⟨hu.frame.segs, hu.frame.cr0, hu.frame.mem⟩
  refine leads_instr rfl rfl hureal hIu rfl ?_
  refine leads_instr rfl rfl hureal hIu rfl ?_
  refine leads_instr rfl rfl hureal hIu rfl ?_
  refine leads_instr rfl rfl hureal hIu rfl ?_
  refine leads_instr rfl rfl hureal hIu rfl ?_
  refine leads_instr rfl rfl hureal hIu rfl ?_
  refine leads_video rfl rfl hureal (hu.stack.congr rfl rfl) ha hIu fun v hv _ => ?_
  refine .here ⟨rfl, hv.stack, ⟨?_, ?_, ?_⟩, ?_⟩
  · exact hv.frame.segs.trans hu.frame.segs
  · exact hv.frame.cr0.trans hu.frame.cr0
  · exact fun x hx => (hv.frame.mem x hx).trans (hu.frame.mem x hx)
  · have hucx : u.regs.ecx.word = 0 := hu.ecx.trans (Register.word_setWord ..)
    rw [hv.requests]
    show u.requests ++ [⟨VIDEO, (0x02 : Byte) ++ (0x00 : Byte), (0x00 : Byte) ++ (0x00 : Byte),
      u.regs.ecx.word, (0x00 : Byte) ++ (0x00 : Byte)⟩] = _
    rw [hfirst, hucx, List.append_assoc]
    rfl

/-- `clrscr` writes no character. -/
theorem prints_clrscr : Prints I B m₀ .clrscr 16 (fun _ : State ε => True) [] := by
  refine performs_clrscr.prints fun s rs h => ?_
  obtain ⟨hwritten, hreads⟩ := written_clearRequests s.regs.ebx.low
  rw [h, written_append, reads_append, hwritten, hreads, List.append_nil, List.append_nil]
  exact ⟨rfl, rfl⟩

/-! ### `print_hex` -/

/-- The character of a hexadecimal digit. -/
def hexChar (d : ℕ) : Byte := if d ≤ 9 then 0x30 + BitVec.ofNat 8 d else 0x57 + BitVec.ofNat 8 d

/-- What the loop writes: the uppermost digit, then the others in its place. -/
def hexDigits : ℕ → Word → List Byte
  | 0, _ => []
  | n + 1, v => hexChar (v >>> 12).toNat :: hexDigits n (v <<< 4)

/-- The four digits of a number behind the prefix `0x`. -/
def hexText (v : Word) : List Byte := ascii "0x" ++ (Numeral.leading 16 4 v.toNat).map hexChar

/-- The digits that the loop of `print_hex` writes are the leading ones of the number. -/
theorem hexDigits_eq (n : ℕ) (hn : n ≤ 4) (v : Word) :
    hexDigits n v = (Numeral.leading 16 n (v.toNat / 16 ^ (4 - n))).map hexChar := by
  induction n generalizing v with
  | zero => rfl
  | succ n ih =>
    have hhead : (v >>> 12).toNat = v.toNat / 16 ^ (4 - (n + 1)) / 16 ^ n := by
      have hpow : 16 ^ (4 - (n + 1)) * 16 ^ n = 2 ^ 12 := by
        rw [← Nat.pow_add, show 4 - (n + 1) + n = 3 by omega]
        rfl
      rw [BitVec.toNat_ushiftRight, Nat.shiftRight_eq_div_pow, Nat.div_div_eq_div_mul, hpow]
    have hrest : (v <<< 4).toNat / 16 ^ (4 - n) = v.toNat / 16 ^ (4 - (n + 1)) % 16 ^ n := by
      have hpow : 16 ^ (4 - n) = 16 * 16 ^ (4 - (n + 1)) := by
        rw [← Nat.pow_succ', show (4 - (n + 1)).succ = 4 - n by omega]
      have hall : 2 ^ 16 = 16 * (16 ^ (4 - (n + 1)) * 16 ^ n) := by
        rw [← Nat.pow_add, ← Nat.pow_succ', show (4 - (n + 1) + n).succ = 4 by omega]
        rfl
      rw [BitVec.toNat_shiftLeft, Nat.shiftLeft_eq, Nat.mul_comm, hall, hpow, Nat.mul_mod_mul_left,
        Nat.mul_div_mul_left _ _ (by decide), Nat.mod_mul_right_div_self]
    rw [hexDigits, ih (by omega), hhead, hrest]
    rfl

/-- Small numbers are compared as they stand. -/
theorem slt_eq_of_small {w : ℕ} {x y : BitVec w} (hx : 2 * x.toNat < 2 ^ w)
    (hy : 2 * y.toNat < 2 ^ w) : x.slt y = decide (x.toNat < y.toNat) := by
  rw [BitVec.slt, BitVec.toInt_eq_toNat_of_lt hx, BitVec.toInt_eq_toNat_of_lt hy]
  exact decide_eq_decide.2 Int.ofNat_lt

/-- The character of the digit `d` has been put into `BL`. -/
structure Chosen (a d : ℕ) (s t : State ε) (loc : Location Label) : Prop
    extends Ran a ⟨.printHexLoopEnd, 0⟩ s [] t loc where
  ah : t.regs.eax.high = s.regs.eax.high
  ecx : t.regs.ecx.word = s.regs.ecx.word
  edx : t.regs.edx.word = s.regs.edx.word
  bl : t.regs.ebx.low = hexChar d

/-- The choice between a number and a letter. -/
theorem leads_choose {d : ℕ} (hd : d < 16) (hs : RealMode s) (hstack : StackAt 0x9000 a s)
    (hI : Intact I m₀ s.mem) (hbl : s.regs.ebx.low = BitVec.ofNat 8 d) :
    Leads I B m₀ (Chosen a d s) s ⟨.printHexLoopStart, 6⟩ := by
  have hlow : s.regs.ebx.low.toNat = d := by
    rw [hbl, BitVec.toNat_ofNat, Nat.mod_eq_of_lt (by omega)]
  have hslt : (9 : Byte).slt s.regs.ebx.low = decide (9 < d) := by
    rw [slt_eq_of_small (by decide) (by omega), hlow]
    rfl
  refine leads_instr rfl rfl hs hI rfl ?_
  by_cases hletter : 9 < d
  · refine leads_jump ?_ rfl rfl hs hI ?_
    · exact (Cond.g_ofSub ..).trans (hslt.trans (decide_eq_true hletter))
    refine leads_instr rfl rfl hs hI rfl ?_
    refine leads_instr rfl rfl hs hI rfl (.here ?_)
    refine ⟨⟨(Since.refl hstack).congr rfl rfl rfl rfl rfl, rfl⟩, rfl, rfl, rfl, ?_⟩
    show s.regs.ebx.low + 0x57 = hexChar d
    rw [hexChar, if_neg (by omega), hbl, BitVec.add_comm]
  · refine leads_pass ?_ rfl rfl hs hI ?_
    · exact (Cond.g_ofSub ..).trans (hslt.trans (decide_eq_false hletter))
    refine leads_jump ?_ rfl rfl hs hI ?_
    · refine (Cond.le_ofSub ..).trans (BitVec.sle_eq_not_slt.trans ?_)
      exact congrArg not (hslt.trans (decide_eq_false hletter))
    refine leads_instr rfl rfl hs hI rfl ?_
    refine leads_instr rfl rfl hs hI rfl (.here ?_)
    refine ⟨⟨(Since.refl hstack).congr rfl rfl rfl rfl rfl, rfl⟩, rfl, rfl, rfl, ?_⟩
    show s.regs.ebx.low + 0x30 = hexChar d
    rw [hexChar, if_pos (by omega), hbl, BitVec.add_comm]

/-- **The character of the uppermost digit.**  Four bits are a digit, so the code at
`.unknown_digit` is never reached. -/
theorem leads_printHexLoopStart (hs : RealMode s) (hstack : StackAt 0x9000 a s)
    (hI : Intact I m₀ s.mem) :
    Leads I B m₀ (Chosen a (s.regs.edx.word >>> 12).toNat s) s ⟨.printHexLoopStart, 0⟩ := by
  have hdigit : (s.regs.edx.word >>> 12).toNat < 16 := by
    have := s.regs.edx.word.isLt
    rw [BitVec.toNat_ushiftRight, Nat.shiftRight_eq_div_pow]
    omega
  have hbx : ((s.regs.ebx.setWord s.regs.edx.word).setWord
      ((s.regs.ebx.setWord s.regs.edx.word).word >>> 12)).word = s.regs.edx.word >>> 12 := by
    rw [Register.word_setWord, Register.word_setWord]
  refine leads_instr rfl rfl hs hI rfl ?_
  refine leads_instr rfl rfl hs hI rfl ?_
  refine leads_instr rfl rfl hs hI rfl ?_
  refine leads_pass ?_ rfl rfl hs hI ?_
  · refine (Cond.g_ofSub _ _ (0xf : Word)).trans ((congrArg _ hbx).trans ?_)
    rw [slt_eq_of_small (by decide) (by omega)]
    exact decide_eq_false (by show ¬ 0xf < _; omega)
  refine leads_instr rfl rfl hs hI rfl ?_
  refine leads_pass ?_ rfl rfl hs hI ?_
  · refine (Cond.l_ofSub _ _ (0 : Word)).trans ((congrArg (BitVec.slt · 0) hbx).trans ?_)
    rw [slt_eq_of_small (by omega) (by decide)]
    exact decide_eq_false (Nat.not_lt_zero _)
  refine Until.post ?_ (leads_choose hdigit hs (hstack.congr rfl rfl) hI ?_)
  · rintro ⟨t, loc⟩ ⟨⟨ht, hloc⟩, hah, hcx, hdx, hbl⟩
    exact ⟨⟨⟨ht.stack, ⟨ht.frame.segs, ht.frame.cr0, ht.frame.mem⟩,
      ⟨ht.wrote.written, ht.wrote.reads⟩⟩, hloc⟩,
      hah, hcx, hdx, hbl⟩
  · show ((s.regs.ebx.setWord s.regs.edx.word).word >>> 12).extractLsb' 0 8 = _
    rw [Register.word_setWord]
    rfl

/-- After a round with the counter `k` the uppermost digit has been written, and the next
one has taken its place. -/
structure Round (a k : ℕ) (s t : State ε) (loc : Location Label) : Prop
    extends Since a s [hexChar (s.regs.edx.word >>> 12).toNat] t where
  ah : t.regs.eax.high = 0x0e
  edx : t.regs.edx.word = s.regs.edx.word <<< 4
  loc : k = 0 ∧ loc = .inside ⟨.printHexEnd, 0⟩ ∨
    k ≠ 0 ∧ loc = .inside ⟨.printHexLoopStart, 0⟩ ∧ t.regs.ecx.word = BitVec.ofNat 16 (k - 1)

/-- One round of the loop; the counter is tested before it is decremented. -/
theorem leads_round {k : ℕ} (hk : k < 2 ^ 16) (hs : RealMode s) (hstack : StackAt 0x9000 a s)
    (hI : Intact I m₀ s.mem) (ha : 0x8e00 ≤ a) (hah : s.regs.eax.high = 0x0e)
    (hcx : s.regs.ecx.word = BitVec.ofNat 16 k) :
    Leads I B m₀ (Round a k s) s ⟨.printHexLoopStart, 0⟩ := by
  refine (leads_printHexLoopStart hs hstack hI).trans ?_
  rintro ⟨t, loc⟩ ⟨⟨ht, hloc⟩, htah, htcx, htdx, hbl⟩
  obtain rfl : loc = .inside ⟨.printHexLoopEnd, 0⟩ := hloc
  show Leads I B m₀ (Round a k s) t ⟨.printHexLoopEnd, 0⟩
  refine leads_instr rfl rfl (ht.realMode hs) (ht.intact hI) rfl ?_
  refine leads_put rfl rfl hs hI ha (ht.congr rfl rfl rfl rfl rfl) (htah.trans hah) fun u hu => ?_
  have hput : Since a s [hexChar (s.regs.edx.word >>> 12).toNat] u := by
    rw [← hbl]
    exact hu.toSince
  have hucx : u.regs.ecx.word = BitVec.ofNat 16 k := hu.ecx.trans (htcx.trans hcx)
  have hudx : (u.regs.edx.setWord (u.regs.edx.word <<< 4)).word = s.regs.edx.word <<< 4 := by
    rw [Register.word_setWord, hu.edx]
    exact congrArg (fun v : Word => v <<< 4) htdx
  have hureal := hput.realMode hs
  have hIu := hput.intact hI
  refine leads_instr rfl rfl hureal hIu rfl ?_
  refine leads_instr rfl rfl hureal hIu rfl ?_
  have hzero : (u.regs.ecx.word == 0) = decide (k = 0) := by
    rw [hucx, Bool.eq_iff_iff, beq_iff_eq, decide_eq_true_iff, ← BitVec.toNat_inj,
      BitVec.toNat_ofNat, Nat.mod_eq_of_lt hk]
    rfl
  by_cases hk0 : k = 0
  · refine leads_jump ((Cond.e_ofSub ..).trans (hzero.trans (decide_eq_true hk0))) rfl rfl hureal
      hIu (.here ?_)
    exact ⟨hput.congr rfl rfl rfl rfl rfl, hu.ah, hudx, .inl ⟨hk0, rfl⟩⟩
  · refine leads_pass ((Cond.e_ofSub ..).trans (hzero.trans (decide_eq_false hk0))) rfl rfl hureal
      hIu ?_
    refine leads_instr rfl rfl hureal hIu rfl ?_
    refine leads_instr rfl rfl hureal hIu rfl (.here ?_)
    refine ⟨hput.congr rfl rfl rfl rfl rfl, hu.ah, hudx, .inr ⟨hk0, rfl, ?_⟩⟩
    show (u.regs.ecx.setWord (u.regs.ecx.word - 1)).word = BitVec.ofNat 16 (k - 1)
    rw [Register.word_setWord, hucx]
    bv_omega

/-- **The loop of `print_hex`** writes the digits from the uppermost one on. -/
theorem leads_printHexLoop {k : ℕ} (hk : k < 2 ^ 16) (hs : RealMode s)
    (hstack : StackAt 0x9000 a s) (hI : Intact I m₀ s.mem) (ha : 0x8e00 ≤ a)
    (hah : s.regs.eax.high = 0x0e) (hcx : s.regs.ecx.word = BitVec.ofNat 16 k) :
    Leads I B m₀ (Ran a ⟨.printHexEnd, 0⟩ s (hexDigits (k + 1) s.regs.edx.word)) s
      ⟨.printHexLoopStart, 0⟩ := by
  induction k generalizing s with
  | zero =>
    refine Until.post ?_ (leads_round hk hs hstack hI ha hah hcx)
    rintro ⟨t, loc⟩ ⟨ht, _, _, ⟨_, hloc⟩ | ⟨hne, _⟩⟩
    · exact ⟨ht, hloc⟩
    · exact absurd rfl hne
  | succ k ih =>
    refine (leads_round hk hs hstack hI ha hah hcx).trans ?_
    rintro ⟨t, loc⟩ ⟨ht, htah, htdx, ⟨hzero, _⟩ | ⟨_, hloc, htcx⟩⟩
    · exact absurd hzero (Nat.succ_ne_zero k)
    obtain rfl : loc = .inside ⟨.printHexLoopStart, 0⟩ := hloc
    refine Until.post ?_ (ih (by omega) (ht.realMode hs) ht.stack (ht.intact hI) htah htcx)
    rintro ⟨u, loc⟩ ⟨hu, hloc⟩
    rw [htdx] at hu
    exact ⟨ht.trans hu, hloc⟩

/-- **`print_hex`** writes the number in `DX`. -/
theorem prints_printHex (v : Word) :
    Prints I B m₀ .printHex 16 (fun s : State ε => s.regs.edx.word = v) (hexText v) := by
  refine prints_saved (g := .printHexEnd) (k := 0) (n := 0) rfl rfl rfl rfl rfl rfl rfl ?_
  intro s t a hdx ht hI ha
  refine leads_instr rfl rfl ht.real hI rfl ?_
  refine leads_instr rfl rfl ht.real hI rfl ?_
  refine leads_instr rfl rfl ht.real hI rfl ?_
  refine leads_put rfl rfl ht.real hI ha ((Since.refl ht.stack).congr rfl rfl rfl rfl rfl) rfl
    fun u hu => ?_
  refine leads_instr rfl rfl (hu.realMode ht.real) (hu.intact hI) rfl ?_
  refine leads_put rfl rfl ht.real hI ha (hu.toSince.congr rfl rfl rfl rfl rfl) hu.ah
    fun w hw => ?_
  have hwcx : w.regs.ecx.word = BitVec.ofNat 16 3 := hw.ecx.trans (hu.ecx.trans
    (Register.word_setWord ..))
  have hwdx : w.regs.edx.word = v := hw.edx.trans (hu.edx.trans
    ((ht.words .edx (by decide)).trans hdx))
  refine Until.post ?_ (leads_printHexLoop (by decide) (hw.realMode ht.real) hw.stack
    (hw.intact hI) ha hw.ah hwcx)
  rintro ⟨x, loc⟩ ⟨hx, hloc⟩
  refine ⟨?_, hloc⟩
  have htext : hexDigits 4 v = (Numeral.leading 16 4 v.toNat).map hexChar := by
    rw [hexDigits_eq 4 (le_refl 4), Nat.sub_self, pow_zero, Nat.div_one]
  rw [hwdx, htext] at hx
  exact hw.toSince.trans hx

/-- **`println_hex`**, which saves no registers itself. -/
theorem prints_printlnHex (v : Word) :
    Prints I B m₀ .printlnHex 18 (fun s : State ε => s.regs.edx.word = v) (hexText v ++ crLf) := by
  intro s a back hs hI hentered ha hdx
  have hstack := hentered.stack
  refine leads_call (prints_printHex v) rfl rfl (by decide) hs hI hstack ha hdx fun u hu huw => ?_
  refine leads_call prints_printLf rfl rfl (by decide) (hu.realMode hs) (hu.intact hI) hu.stack ha
    trivial fun w hw hww => ?_
  exact leads_ret rfl rfl hs hI hentered (hu.trans hw) (huw.trans hww)

end Boot
end DrewOS
