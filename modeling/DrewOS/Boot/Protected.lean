/-
# Protected mode

The two descriptors of `src/boot/gdt.asm` are read by the processor as flat segments: base
0, limit 4 GiB (`lookup_code`, `lookup_data`).  So after `switch_to_pm` and `init_pm` every
offset is its own address (`FlatMode`), and the stack starts at `0x90000`.  `print_pm` writes a
string to the screen, one cell of two bytes for each character, and changes nothing else
outside its stack (`leads_printPm`).
-/

import DrewOS.Boot.Disk

namespace DrewOS
namespace Boot

open ByteMem Transition X86 X86.Asm
open Printing (HoldsString)

variable {ε : Type} {I : SectorImage} {B : Bios ε} {m₀ : Mem} {pc back : Pc Label} {a : ℕ}
  {s t u q : State ε} {Q : State ε → Location Label → Prop}

/-! ### The descriptors -/

/-- What a segment register holds when the base is 0 and the limit 4 GiB. -/
def flat (selector : Word) (code : Bool) : Segment where
  selector := selector
  base := 0
  limit := 0xffffffff
  code := code
  writable := !code
  big := true

/-- A flat segment adds nothing to the offset. -/
theorem linear_flat {g : Segment} {off : Dword} {n : ℕ} (hbase : g.base = 0)
    (hlimit : g.limit = 0xffffffff) (h : off.toNat + n ≤ 2 ^ 32) :
    g.linear off n = some off := by
  have hmax : (0xffffffff : Dword).toNat + 1 = 2 ^ 32 := rfl
  have hzero : (0 : Addr) + off = off := BitVec.zero_add off
  rw [Segment.linear, hlimit, hmax, if_pos h, hbase, hzero]

/-- A descriptor is its eight bytes. -/
theorem descriptor_read {m m' : Mem} {a a' : Addr}
    (h : ∀ i < 8, m (a + BitVec.ofNat 32 i) = m' (a' + BitVec.ofNat 32 i)) :
    Descriptor.read m a = Descriptor.read m' a' := by
  have h0 := h 0 (by decide)
  rw [add_ofNat_zero, add_ofNat_zero] at h0
  have h1 : m (a + 1) = m' (a' + 1) := h 1 (by decide)
  have h2 : m (a + 2) = m' (a' + 2) := h 2 (by decide)
  have h3 : m (a + 3) = m' (a' + 3) := h 3 (by decide)
  have h4 : m (a + 4) = m' (a' + 4) := h 4 (by decide)
  have h5 : m (a + 5) = m' (a' + 5) := h 5 (by decide)
  have h6 : m (a + 6) = m' (a' + 6) := h 6 (by decide)
  have h7 : m (a + 7) = m' (a' + 7) := h 7 (by decide)
  unfold Descriptor.read
  rw [h0, h1, h2, h3, h4, h5, h6, h7]

/-- The memory in which the table lies at address 0. -/
def gdtMem : Mem := fun x => (gdtNull ++ gdtCode ++ gdtData).getD x.toNat 0

/-- The code descriptor of the GDT is flat. -/
theorem read_code : Descriptor.read gdtMem 8 =
    { base := 0, limit := 0xffffffff, present := true, segment := true, code := true,
      access := true, big := true } := by
  decide

/-- The data descriptor of the GDT is flat. -/
theorem read_data : Descriptor.read gdtMem 16 =
    { base := 0, limit := 0xffffffff, present := true, segment := true, code := false,
      access := true, big := true } := by
  decide

/-- The table register after `lgdt [gdt_descriptor]`. -/
def gdtr (I : SectorImage) : Gdtr := ⟨23, I.data .gdtStart⟩

/-- The GDT that is loaded is the one of the sector. -/
theorem gdt_byte (hL : I.Loaded m₀) (hI : Intact I m₀ s.mem) {i : ℕ} (hi : i < 24) :
    s.mem (I.data .gdtStart + BitVec.ofNat 32 i) = gdtMem (BitVec.ofNat 32 i) := by
  have hnat : (BitVec.ofNat 32 i).toNat = i := by
    rw [BitVec.toNat_ofNat]
    omega
  refine data_byte hL hI (by decide) i _ ?_
  show (gdtNull ++ gdtCode ++ gdtData)[i]? = some _
  unfold gdtMem
  rw [hnat, List.getD, List.getElem?_eq_getElem hi]
  rfl

/-- **`lgdt [gdt_descriptor]`**: the base fits into 24 bits. -/
theorem exec_lgdt (hL : I.Loaded m₀) (hI : Intact I m₀ s.mem) (hs : RealMode s) :
    exec I.toImage B.call ⟨.switchToPm, 1⟩ (.lgdt .gdtDescriptor) s =
      some ⟨{ s with gdtr := gdtr I }, .inside ⟨.switchToPm, 2⟩⟩ := by
  have hbytes := data_byte hL hI (d := .gdtDescriptor) (by decide)
  have hle := I.data_le .gdtStart
  have hlimit : leNat s.mem (I.data .gdtDescriptor) 2 = 23 := by
    refine (leNat_eq fun i hi => hbytes i _ ?_).trans (by decide : 23 % 256 ^ 2 = 23)
    interval_cases i <;> rfl
  have hbase : leNat s.mem (I.data .gdtDescriptor + 2) 4 = (I.data .gdtStart).toNat := by
    refine (leNat_eq (v := (I.data .gdtStart).toNat) fun i hi => ?_).trans
      (Nat.mod_eq_of_lt (by omega))
    have hat : I.data .gdtDescriptor + 2 + BitVec.ofNat 32 i =
        I.data .gdtDescriptor + BitVec.ofNat 32 (2 + i) := add_ofNat_add _ 2 i
    rw [hat]
    refine hbytes (2 + i) _ ?_
    interval_cases i <;> rfl
  have hword : (load s.mem .word (I.data .gdtDescriptor) : Word) = 23 :=
    congrArg (BitVec.ofNat 16) hlimit
  have hdword : (load s.mem .dword (I.data .gdtDescriptor + 2) : Addr) = I.data .gdtStart := by
    refine (congrArg (BitVec.ofNat 32) hbase).trans ?_
    rw [BitVec.ofNat_toNat, BitVec.setWidth_eq]
  have hmask : I.data .gdtStart &&& 0x00ffffff = I.data .gdtStart := by
    refine BitVec.eq_of_toNat_eq ?_
    rw [BitVec.toNat_and]
    exact (Nat.and_two_pow_sub_one_eq_mod _ 24).trans (Nat.mod_eq_of_lt (by omega))
  show ((s.segs.ds.linear (I.data .gdtDescriptor) 6).map _).map _ = _
  rw [linear_data hs _ 6 (by decide), Option.map_some, Option.map_some, hword, hdword]
  show some (Config.mk { s with gdtr := ⟨23, I.data .gdtStart &&& 0x00ffffff⟩ } _) = _
  rw [hmask]
  rfl

/-- **The code segment** is flat. -/
theorem lookup_code (hL : I.Loaded m₀) (hI : Intact I m₀ s.mem) :
    ((gdtr I).lookup s.mem CODE_SEG).bind (fun d => d.load .cs CODE_SEG) =
      some (flat CODE_SEG true) := by
  have hread : Descriptor.read s.mem (I.data .gdtStart + 8) = Descriptor.read gdtMem 8 := by
    refine descriptor_read fun i hi => ?_
    have h8 := gdt_byte hL hI (i := 8 + i) (by omega)
    rwa [← add_ofNat_add, BitVec.ofNat_add] at h8
  show (some (Descriptor.read s.mem (I.data .gdtStart + 8))).bind _ = _
  rw [hread, read_code]
  rfl

/-- **The data segment** is flat. -/
theorem lookup_data (hL : I.Loaded m₀) (hI : Intact I m₀ s.mem) {r : SReg} (hr : r ≠ .cs) :
    ((gdtr I).lookup s.mem DATA_SEG).bind (fun d => d.load r DATA_SEG) =
      some (flat DATA_SEG false) := by
  have hread : Descriptor.read s.mem (I.data .gdtStart + 16) = Descriptor.read gdtMem 16 := by
    refine descriptor_read fun i hi => ?_
    have h16 := gdt_byte hL hI (i := 16 + i) (by omega)
    rwa [← add_ofNat_add, BitVec.ofNat_add] at h16
  show (some (Descriptor.read s.mem (I.data .gdtStart + 16))).bind _ = _
  rw [hread, read_data]
  cases r with
  | cs => exact absurd rfl hr
  | _ => rfl

/-! ### The switch -/

/-- Protected mode, with flat segments and interrupts disabled. -/
structure FlatMode (s : State ε) : Prop where
  cs : s.segs.cs = flat CODE_SEG true
  ds : s.segs.ds = flat DATA_SEG false
  es : s.segs.es = flat DATA_SEG false
  fs : s.segs.fs = flat DATA_SEG false
  gs : s.segs.gs = flat DATA_SEG false
  ss : s.segs.ss = flat DATA_SEG false
  pe : s.cr0.getLsbD 0 = true
  ifl : s.flags.ifl = false

/-- One instruction, whatever the mode. -/
theorem leads_step {i : Instr Label Data} {pc' : Pc Label}
    (hi : (code pc.label)[pc.index]? = some i) (hlive : dead pc = false)
    (hruns : s.Runs (program.bits pc.label)) (hI : Intact I m₀ s.mem)
    (hexec : exec I.toImage B.call pc i s = some ⟨t, .inside pc'⟩)
    (h : Leads I B m₀ Q t pc') : Leads I B m₀ Q s pc :=
  until_instr (P := program) hi (running_at hI hlive) hruns hexec h

/-- `jmp CODE_SEG:init_pm`. -/
theorem exec_jmpFar (hL : I.Loaded m₀) (hI : Intact I m₀ s.mem) (hgdtr : s.gdtr = gdtr I)
    (hpe : s.cr0.getLsbD 0 = true) :
    exec I.toImage B.call pc (.jmpFar CODE_SEG .initPm) s =
      some ⟨{ s with segs := s.segs.set .cs (flat CODE_SEG true) }, .inside ⟨.initPm, 0⟩⟩ := by
  show (s.loadSegment .cs CODE_SEG).map _ = _
  unfold State.loadSegment
  rw [if_pos hpe, hgdtr, lookup_code hL hI]
  rfl

/-- Between the far jump and the loading of the stack pointer. -/
structure Initialising (I : SectorImage) (s t : State ε) : Prop where
  cs : t.segs.cs = flat CODE_SEG true
  pe : t.cr0.getLsbD 0 = true
  ifl : t.flags.ifl = false
  gdtr : t.gdtr = gdtr I
  mem : t.mem = s.mem
  requests : t.requests = s.requests

/-- `switch_to_pm` comes to `init_pm` in protected mode. -/
theorem leads_switchToPm (hL : I.Loaded m₀) (hI : Intact I m₀ s.mem) (hs : RealMode s)
    (hnext : ∀ t, Initialising I s t → Leads I B m₀ Q t ⟨.initPm, 0⟩) :
    Leads I B m₀ Q s ⟨.switchToPm, 0⟩ := by
  refine leads_instr rfl rfl hs hI rfl ?_
  refine leads_instr rfl rfl hs hI (exec_lgdt hL hI hs) ?_
  refine leads_instr rfl rfl hs hI rfl ?_
  refine leads_instr rfl rfl hs hI rfl ?_
  refine leads_instr rfl rfl hs hI rfl ?_
  -- `CR0` with its lowest bit set
  have hpe : ∀ r : Register, (((r.setDword s.cr0).setDword
      ((r.setDword s.cr0).dword ||| 1)).dword).getLsbD 0 = true := by
    intro r
    rw [Register.dword_setDword, BitVec.getLsbD_or]
    exact Bool.or_true _
  refine leads_step rfl rfl ⟨hs.code, hs.big⟩ hI (exec_jmpFar hL hI rfl (hpe _)) (hnext _ ?_)
  exact ⟨rfl, hpe _, rfl, rfl, rfl, rfl⟩

/-- Between the far jump and the stack, 32-bit code can run. -/
theorem Initialising.runs (ht : Initialising I s t) : t.Runs .dword := by
  unfold State.Runs
  rw [ht.cs]
  exact ⟨rfl, rfl⟩

/-- Loading a data register with the flat segment goes on with the switch. -/
theorem Initialising.set (ht : Initialising I s t) {r : SReg} (hr : r ≠ .cs) :
    Initialising I s { t with segs := t.segs.set r (flat DATA_SEG false) } := by
  refine ⟨?_, ht.pe, ht.ifl, ht.gdtr, ht.mem, ht.requests⟩
  cases r with
  | cs => exact absurd rfl hr
  | _ => exact ht.cs

/-- `mov sreg, ax` with the selector of the data segment. -/
theorem leads_movSeg (hL : I.Loaded m₀) (hI : Intact I m₀ s.mem) (ht : Initialising I s t)
    (hax : t.regs.eax.word = DATA_SEG) {r : SReg} (hr : r ≠ .cs)
    (hi : (code pc.label)[pc.index]? = some (.movSeg r .eax)) (hlive : dead pc = false)
    (hbits : pc.label.bits = .dword)
    (h : Leads I B m₀ Q { t with segs := t.segs.set r (flat DATA_SEG false) } (program.succ pc)) :
    Leads I B m₀ Q t pc := by
  have hIt : Intact I m₀ t.mem := by
    rw [ht.mem]
    exact hI
  have hruns : t.Runs (program.bits pc.label) := by
    show t.Runs pc.label.bits
    rw [hbits]
    exact ht.runs
  refine leads_step hi hlive hruns hIt ?_ h
  show (t.loadSegment r t.regs.eax.word).map _ = _
  unfold State.loadSegment
  rw [if_pos ht.pe, hax, ht.gdtr, lookup_data hL hIt hr]
  rfl

/-- The stack of protected mode is set up, and `BEGIN_PM` has been called. -/
structure Beginning (s t : State ε) : Prop where
  flat : FlatMode t
  stack : StackAt 0x90000 0x8fffc t
  ebp : t.regs.ebp.dword = 0x90000
  mem : ∀ x : Addr, x.toNat < 0x80000 → t.mem x = s.mem x
  requests : t.requests = s.requests

/-- A flat stack. -/
theorem stackAt_flat {E : ℕ} (hss : s.segs.ss = flat DATA_SEG false) (hE : E < 2 ^ 32) (ha : a ≤ E)
    (hesp : s.regs.esp.dword = BitVec.ofNat 32 a) : StackAt E a s := by
  have hlimit : (flat DATA_SEG false).limit.toNat + 1 = 2 ^ 32 := rfl
  have hbig : s.segs.ss.big = true := by
    rw [hss]
    rfl
  refine ⟨by rw [hss]; rfl, by rw [hss]; rfl, ?_, ?_, ha, ?_⟩
  · rw [hss, hlimit]
    omega
  · rw [hbig, if_pos rfl]
    exact hE
  · unfold State.spPlus
    rw [hbig, if_pos rfl, hesp]
    exact BitVec.add_zero _

/-- In the flat stack segment `ESP` is the stack pointer. -/
theorem esp_of_flat {E : ℕ} (h : StackAt E a s) (hss : s.segs.ss = flat DATA_SEG false) :
    s.regs.esp.dword = BitVec.ofNat 32 a := by
  have hsp := h.sp
  unfold State.spPlus at hsp
  rw [hss, if_pos (show (flat DATA_SEG false).big = true from rfl)] at hsp
  exact (BitVec.add_zero _).symm.trans hsp

/-- In flat mode 32-bit code can run. -/
theorem FlatMode.runs (hs : FlatMode s) : s.Runs .dword := by
  unfold State.Runs
  rw [hs.cs]
  exact ⟨rfl, rfl⟩

/-- Flat mode is a matter of segments, `CR0` and the interrupt flag. -/
theorem FlatMode.congr (hs : FlatMode s) (hsegs : t.segs = s.segs) (hcr0 : t.cr0 = s.cr0)
    (hifl : t.flags.ifl = s.flags.ifl) : FlatMode t :=
  ⟨hsegs ▸ hs.cs, hsegs ▸ hs.ds, hsegs ▸ hs.es, hsegs ▸ hs.fs, hsegs ▸ hs.gs, hsegs ▸ hs.ss,
    hcr0 ▸ hs.pe, hifl.trans hs.ifl⟩

/-- `call BEGIN_PM`. -/
theorem leads_callBeginPm (hI : Intact I m₀ s.mem) (ht : FlatMode t)
    (hesp : t.regs.esp.dword = 0x90000) (hebp : t.regs.ebp.dword = 0x90000) (hmem : t.mem = s.mem)
    (hreqs : t.requests = s.requests)
    (hnext : ∀ u, Beginning s u → Leads I B m₀ Q u ⟨.beginPm, 0⟩) :
    Leads I B m₀ Q t ⟨.initPm, 8⟩ := by
  have hstack : StackAt 0x90000 0x90000 t := stackAt_flat ht.ss (by decide) (le_refl _) hesp
  have hIt : Intact I m₀ t.mem := by
    rw [hmem]
    exact hI
  refine until_call (P := program) rfl (running_at hIt rfl) ht.runs hstack (by decide) (hnext _ ?_)
  refine ⟨⟨ht.cs, ht.ds, ht.es, ht.fs, ht.gs, ht.ss, ht.pe, ht.ifl⟩,
    hstack.withStack (by decide) _, hebp, fun x hx => ?_, hreqs⟩
  have hat : (BitVec.ofNat 32 0x8fffc).toNat = 0x8fffc := rfl
  rw [← hmem]
  refine store_of_ge t.mem _ ?_
  show 4 ≤ (x - BitVec.ofNat 32 0x8fffc).toNat
  rw [BitVec.toNat_sub, hat]
  omega

/-- **`init_pm`** makes all segments flat. -/
theorem leads_initPm (hL : I.Loaded m₀) (hI : Intact I m₀ s.mem) (ht : Initialising I s t)
    (hnext : ∀ u, Beginning s u → Leads I B m₀ Q u ⟨.beginPm, 0⟩) :
    Leads I B m₀ Q t ⟨.initPm, 0⟩ := by
  have hIt : Intact I m₀ t.mem := by
    rw [ht.mem]
    exact hI
  have hax : (t.regs.eax.setWord DATA_SEG).word = DATA_SEG := Register.word_setWord ..
  refine leads_step rfl rfl ht.runs hIt rfl ?_
  have h0 : Initialising I s (t.setReg .eax (t.regs.eax.setWord DATA_SEG)) :=
    ⟨ht.cs, ht.pe, ht.ifl, ht.gdtr, ht.mem, ht.requests⟩
  have h1 := h0.set (r := .ds) (by decide)
  have h2 := h1.set (r := .ss) (by decide)
  have h3 := h2.set (r := .es) (by decide)
  have h4 := h3.set (r := .fs) (by decide)
  have h5 := h4.set (r := .gs) (by decide)
  refine leads_movSeg hL hI h0 hax (by decide) rfl rfl rfl ?_
  refine leads_movSeg hL hI h1 hax (by decide) rfl rfl rfl ?_
  refine leads_movSeg hL hI h2 hax (by decide) rfl rfl rfl ?_
  refine leads_movSeg hL hI h3 hax (by decide) rfl rfl rfl ?_
  refine leads_movSeg hL hI h4 hax (by decide) rfl rfl rfl ?_
  refine leads_step rfl rfl h5.runs hIt rfl ?_
  refine leads_step rfl rfl h5.runs hIt rfl ?_
  have hebp : (t.regs.ebp.setDword 0x90000).dword = 0x90000 := Register.dword_setDword ..
  have hesp : (t.regs.esp.setDword (t.regs.ebp.setDword 0x90000).dword).dword = 0x90000 := by
    rw [Register.dword_setDword, hebp]
  refine leads_callBeginPm hI ⟨ht.cs, rfl, rfl, rfl, rfl, rfl, ht.pe, ht.ifl⟩ hesp hebp ht.mem
    ht.requests hnext

/-! ### `print_pm` -/

/-- The memory after the characters have been written to the cells from `v` on, the
attribute behind each of them. -/
def paint (m : Mem) (v : Addr) : List Byte → Mem
  | [] => m
  | c :: cs => paint (store m .word v (GREEN_ON_BLACK ++ c)) (v + 2) cs

/-- Where `print_pm` begins: the fifth row of the screen. -/
def textCells : Addr := VIDEO_MEMORY + 640

/-- Nothing outside the cells changes. -/
theorem paint_of_not_within {m : Mem} {v x : Addr} {cs : List Byte}
    (hv : v.toNat + 2 * cs.length ≤ 2 ^ 32) (hx : ¬ Within v.toNat (2 * cs.length) x) :
    paint m v cs x = m x := by
  induction cs generalizing m v with
  | nil => rfl
  | cons c cs ih =>
    rw [List.length_cons, Nat.mul_succ] at hv hx
    unfold Within at hx
    have hstore : store m .word v (GREEN_ON_BLACK ++ c) x = m x := by
      refine store_of_ge m _ ?_
      show 2 ≤ (x - v).toNat
      rw [BitVec.toNat_sub]
      omega
    rw [paint, ← hstore]
    rcases cs with _ | ⟨d, cs⟩
    · rfl
    have hnext : (v + 2).toNat = v.toNat + 2 := by
      rw [List.length_cons] at hv
      bv_omega
    refine ih (by omega) ?_
    unfold Within
    omega

/-- What a byte becomes depends on that byte alone. -/
theorem paint_congr {m m' : Mem} {v x : Addr} {cs : List Byte} (h : m x = m' x) :
    paint m v cs x = paint m' v cs x := by
  induction cs generalizing m m' v with
  | nil => exact h
  | cons c cs ih =>
    refine ih ?_
    unfold store
    rw [h]

/-- A cell of the text buffer: the character, and behind it the colour. -/
theorem store_cell (m : Mem) (v : Addr) (c : Byte) :
    store m .word v (GREEN_ON_BLACK ++ c) v = c ∧
      store m .word v (GREEN_ON_BLACK ++ c) (v + 1) = GREEN_ON_BLACK := by
  have hlow : (GREEN_ON_BLACK ++ c).extractLsb' 0 8 = c := BitVec.extractLsb'_append_eq_right
  have hhigh : (GREEN_ON_BLACK ++ c).extractLsb' 8 8 = GREEN_ON_BLACK :=
    BitVec.extractLsb'_append_eq_left
  have h0 := store_byte m (w := .word) v (GREEN_ON_BLACK ++ c) (i := 0) (by decide)
  have h1 := store_byte m (w := .word) v (GREEN_ON_BLACK ++ c) (i := 1) (by decide)
  rw [add_ofNat_zero, pow_zero, Nat.div_one] at h0
  have hshift : BitVec.ofNat 8 ((GREEN_ON_BLACK ++ c).toNat / 256 ^ 1) =
      (GREEN_ON_BLACK ++ c).extractLsb' 8 8 :=
    congrArg (BitVec.ofNat 8) (Nat.shiftRight_eq_div_pow _ 8).symm
  exact ⟨h0.trans hlow, h1.trans (hshift.trans hhigh)⟩

/-- **The cells** show the characters. -/
theorem paint_cell {m : Mem} {v : Addr} {cs : List Byte} (hv : v.toNat + 2 * cs.length ≤ 2 ^ 32)
    {i : ℕ} {c : Byte} (hc : cs[i]? = some c) :
    paint m v cs (v + BitVec.ofNat 32 (2 * i)) = c ∧
      paint m v cs (v + BitVec.ofNat 32 (2 * i + 1)) = GREEN_ON_BLACK := by
  induction cs generalizing m v i with
  | nil => exact absurd hc (by simp)
  | cons d cs ih =>
    rw [List.length_cons, Nat.mul_succ] at hv
    have hnext : cs ≠ [] → (v + 2).toNat = v.toNat + 2 := by
      intro hne
      have := List.length_pos_iff.2 hne
      bv_omega
    have hrest : (v + 2).toNat + 2 * cs.length ≤ 2 ^ 32 := by
      rcases eq_or_ne cs [] with rfl | hne
      · exact (Nat.add_zero _).trans_le (v + 2).isLt.le
      · rw [hnext hne]
        omega
    cases i with
    | zero =>
      obtain rfl : d = c := Option.some.inj hc
      obtain ⟨hchar, hattr⟩ := store_cell m v d
      -- the first cell lies below the others
      have hfirst : ∀ x : Addr, x.toNat < v.toNat + 2 →
          paint m v (d :: cs) x = store m .word v (GREEN_ON_BLACK ++ d) x := by
        intro x hx
        rw [paint]
        refine paint_of_not_within hrest ?_
        unfold Within
        rcases eq_or_ne cs [] with rfl | hne
        · rw [List.length_nil]
          omega
        · rw [hnext hne]
          omega
      refine ⟨?_, ?_⟩
      · rw [Nat.mul_zero, add_ofNat_zero, hfirst v (by omega), hchar]
      · have hone : v + BitVec.ofNat 32 (2 * 0 + 1) = v + 1 := rfl
        rw [hone, hfirst (v + 1) (by bv_omega), hattr]
    | succ i =>
      have hih := ih (m := store m .word v (GREEN_ON_BLACK ++ d)) hrest hc
      have hat : ∀ k, v + 2 + BitVec.ofNat 32 k = v + BitVec.ofNat 32 (2 + k) := fun k =>
        add_ofNat_add v 2 k
      rw [hat, hat] at hih
      have heven : 2 * (i + 1) = 2 + 2 * i := by omega
      have hodd : 2 * (i + 1) + 1 = 2 + (2 * i + 1) := by omega
      rw [paint, hodd, heven]
      exact hih

/-- One instruction in protected mode. -/
theorem leads_flat {i : Instr Label Data} {pc' : Pc Label}
    (hi : (code pc.label)[pc.index]? = some i) (hlive : dead pc = false)
    (hbits : pc.label.bits = .dword) (hs : FlatMode s) (hI : Intact I m₀ s.mem)
    (hexec : exec I.toImage B.call pc i s = some ⟨t, .inside pc'⟩)
    (h : Leads I B m₀ Q t pc') : Leads I B m₀ Q s pc := by
  refine leads_step hi hlive ?_ hI hexec h
  show s.Runs pc.label.bits
  rw [hbits]
  exact hs.runs

/-- `mov al, [ebx]`. -/
theorem exec_loadAlPm (hs : FlatMode s) (hbits : pc.label.bits = .dword) :
    exec I.toImage B.call pc (.mov (.low .eax) (.from (.mem (.at .ebx)))) s =
      some ⟨s.setReg .eax { s.regs.eax with low := s.mem s.regs.ebx.dword },
        .inside (program.succ pc)⟩ := by
  have hread : (Place.mem (.at .ebx) : Place Data .byte).read I.toImage .dword s =
      some (s.mem s.regs.ebx.dword) := by
    show (s.segs.ds.linear s.regs.ebx.dword 1).map (load s.mem .byte) = _
    rw [hs.ds, linear_flat rfl rfl s.regs.ebx.dword.isLt]
    exact congrArg some (load_byte s.mem _)
  show ((((Place.mem (.at .ebx) : Place Data .byte).read I.toImage pc.label.bits s).bind fun v =>
    (Place.low .eax : Place Data .byte).write I.toImage pc.label.bits s v).map _) = _
  rw [hbits, hread]
  rfl

/-- `mov [edx], ax`. -/
theorem exec_storeCell (hs : FlatMode s) (hbits : pc.label.bits = .dword)
    (hedx : s.regs.edx.dword.toNat + 2 ≤ 2 ^ 32) :
    exec I.toImage B.call pc (.mov (.mem (.at .edx)) (.from (.r16 .eax))) s =
      some ⟨{ s with mem := store s.mem .word s.regs.edx.dword s.regs.eax.word },
        .inside (program.succ pc)⟩ := by
  have hwrite : (Place.mem (.at .edx) : Place Data .word).write I.toImage .dword s
      s.regs.eax.word =
        some { s with mem := store s.mem .word s.regs.edx.dword s.regs.eax.word } := by
    show (if s.segs.ds.writable then (s.segs.ds.linear s.regs.edx.dword 2).map _ else none) = _
    rw [hs.ds, linear_flat rfl rfl hedx]
    rfl
  show ((Place.mem (.at .edx) : Place Data .word).write I.toImage pc.label.bits s
    s.regs.eax.word).map _ = _
  rw [hbits, hwrite]
  rfl

/-- The loop of `print_pm` has come to its end. -/
structure Painted (E a : ℕ) (cs : List Byte) (s t : State ε) (loc : Location Label) : Prop where
  loc : loc = .inside ⟨.printPmDone, 0⟩
  flat : FlatMode t
  stack : StackAt E a t
  mem : t.mem = paint s.mem s.regs.edx.dword cs
  requests : t.requests = s.requests

/-- Everything below 512 KiB is as it was, the sector among it. -/
theorem Intact.of_below (hI : Intact I m₀ s.mem)
    (hmem : ∀ x : Addr, x.toNat < 0x80000 → t.mem x = s.mem x) : Intact I m₀ t.mem :=
  fun x hx hx' hd => (hmem x (by omega)).trans (hI x hx hx' hd)

/-- **The loop of `print_pm`** writes one cell for each character. -/
theorem leads_printPmLoop {E : ℕ} {cs : List Byte} (hs : FlatMode s) (hstack : StackAt E a s)
    (hI : Intact I m₀ s.mem) (hah : s.regs.eax.high = GREEN_ON_BLACK)
    (hcs : HoldsString s.mem s.regs.ebx.dword cs)
    (hlen : s.regs.ebx.dword.toNat + cs.length < 0x80000)
    (hge : 0x80000 ≤ s.regs.edx.dword.toNat)
    (hle : s.regs.edx.dword.toNat + 2 * cs.length < 2 ^ 32) :
    Leads I B m₀ (Painted E a cs s) s ⟨.printPmLoop, 0⟩ := by
  induction cs generalizing s with
  | nil =>
    have hnul : s.mem s.regs.ebx.dword = 0 := hcs
    have hzero : Cond.e.holds (s.flags.ofSub (s.mem s.regs.ebx.dword) 0) = true :=
      (Cond.e_ofSub ..).trans (beq_iff_eq.2 hnul)
    refine leads_flat rfl rfl rfl hs hI (exec_loadAlPm hs rfl) ?_
    refine leads_flat rfl rfl rfl (hs.congr rfl rfl rfl) hI rfl ?_
    refine leads_flat rfl rfl rfl (hs.congr rfl rfl rfl) hI rfl ?_
    refine .here ⟨?_, hs.congr rfl rfl rfl, hstack.congr rfl rfl, rfl, rfl⟩
    exact congrArg Location.inside (if_pos hzero)
  | cons c cs ih =>
    obtain ⟨hc, hne, hrest⟩ := hcs
    have hzero : Cond.e.holds (s.flags.ofSub (s.mem s.regs.ebx.dword) 0) = false := by
      refine (Cond.e_ofSub ..).trans (beq_eq_false_iff_ne.2 ?_)
      rw [hc]
      exact hne
    rw [List.length_cons] at hlen hle
    refine leads_flat rfl rfl rfl hs hI (exec_loadAlPm hs rfl) ?_
    refine leads_flat rfl rfl rfl (hs.congr rfl rfl rfl) hI rfl ?_
    have hnext : (if Cond.e.holds (s.flags.ofSub (s.mem s.regs.ebx.dword) 0) then
        (⟨.printPmDone, 0⟩ : Pc Label) else program.succ ⟨.printPmLoop, 2⟩) =
          ⟨.printPmLoop, 3⟩ := by
      rw [hzero]
      rfl
    refine leads_flat rfl rfl rfl (hs.congr rfl rfl rfl) hI
      (congrArg (fun pc => some (Config.mk _ (.inside pc))) hnext) ?_
    have hword : Register.word { s.regs.eax with low := s.mem s.regs.ebx.dword } =
        GREEN_ON_BLACK ++ c := by
      rw [← hah, ← hc]
      rfl
    -- the string lies below the cells
    have hbelow : ∀ x : Addr, x.toNat < 0x80000 →
        store s.mem .word s.regs.edx.dword
          (Register.word { s.regs.eax with low := s.mem s.regs.ebx.dword }) x = s.mem x := by
      intro x hx
      refine store_of_ge s.mem _ ?_
      show 2 ≤ (x - s.regs.edx.dword).toNat
      rw [BitVec.toNat_sub]
      omega
    have hI' : Intact I m₀ (store s.mem .word s.regs.edx.dword
        (Register.word { s.regs.eax with low := s.mem s.regs.ebx.dword })) :=
      fun x hx hx' hd => (hbelow x (by omega)).trans (hI x hx hx' hd)
    have hebx : (s.regs.ebx.setDword (s.regs.ebx.dword + 1)).dword = s.regs.ebx.dword + 1 :=
      Register.dword_setDword ..
    have hedx : (s.regs.edx.setDword (s.regs.edx.dword + 2)).dword = s.regs.edx.dword + 2 :=
      Register.dword_setDword ..
    refine leads_flat rfl rfl rfl (hs.congr rfl rfl rfl) hI
      (exec_storeCell (hs.congr rfl rfl rfl) rfl (by show s.regs.edx.dword.toNat + 2 ≤ _; omega)) ?_
    refine leads_flat rfl rfl rfl (hs.congr rfl rfl rfl) hI' rfl ?_
    refine leads_flat rfl rfl rfl (hs.congr rfl rfl rfl) hI' rfl ?_
    refine leads_flat rfl rfl rfl (hs.congr rfl rfl rfl) hI' rfl ?_
    refine Until.post ?_ (ih (hs.congr rfl rfl rfl) (hstack.congr rfl rfl) hI' hah ?_ ?_ ?_ ?_)
    · rintro ⟨t, loc⟩ ⟨hloc, hflat, htstack, hmem, hreqs⟩
      refine ⟨hloc, hflat, htstack, hmem.trans ?_, hreqs⟩
      show paint (store s.mem .word s.regs.edx.dword
        (Register.word { s.regs.eax with low := s.mem s.regs.ebx.dword }))
          (s.regs.edx.setDword (s.regs.edx.dword + 2)).dword cs = _
      rw [hword, hedx]
      rfl
    · have hstring := holdsString_congr hrest fun i hi => hbelow _ (by bv_omega)
      rw [← hebx] at hstring
      exact hstring
    · show (s.regs.ebx.setDword (s.regs.ebx.dword + 1)).dword.toNat + cs.length < 0x80000
      rw [hebx]
      bv_omega
    · show 0x80000 ≤ (s.regs.edx.setDword (s.regs.edx.dword + 2)).dword.toNat
      rw [hedx]
      bv_omega
    · show (s.regs.edx.setDword (s.regs.edx.dword + 2)).dword.toNat + 2 * cs.length < 2 ^ 32
      rw [hedx]
      bv_omega

/-- `add edx, 640`. -/
theorem exec_addEdx (s : State ε) : exec I.toImage B.call ⟨.printPm, 2⟩
    (.add (.r32 .edx) (.imm (640 : Dword))) s =
      some ⟨State.setReg { s with flags := s.flags.ofAdd s.regs.edx.dword 640 } .edx
        (s.regs.edx.setDword (s.regs.edx.dword + 640)), .inside ⟨.printPm, 3⟩⟩ := rfl

/-- `print_pm`, entered in `s`, is back. -/
structure PrintedPm (a : ℕ) (back : Pc Label) (cs : List Byte) (s t : State ε)
    (loc : Location Label) : Prop where
  loc : loc = .inside back
  flat : FlatMode t
  stack : StackAt 0x90000 (a + 4) t
  regs : ∀ r, r ≠ .esp → (t.regs.get r).dword = (s.regs.get r).dword
  mem : ∀ x, ¬ Within (a - 32) 32 x → t.mem x = paint s.mem textCells cs x
  requests : t.requests = s.requests

/-- **`print_pm`** writes a string to the screen and changes nothing else but 32 bytes of
its stack. -/
theorem leads_printPm {cs : List Byte} (hs : FlatMode s) (hI : Intact I m₀ s.mem)
    (h : Entered I.toImage .dword 0x90000 a back s) (ha : 0x80000 + 32 ≤ a)
    (hcs : HoldsString s.mem s.regs.ebx.dword cs)
    (hlen : s.regs.ebx.dword.toNat + cs.length < 0x80000) :
    Leads I B m₀ (PrintedPm a back cs s) s ⟨.printPm, 0⟩ := by
  have hstack := h.stack
  have hroom : a + 4 ≤ 0x90000 := h.room
  have hbytes : Width.dword.bytes * 8 = 32 := rfl
  refine until_pusha (P := program) rfl rfl (running_at hI rfl) hs.runs hstack
    (by show 32 ≤ a; omega) ?_
  have hpushed : ∀ x, ¬ Within (a - 32) 32 x → (pushedAll .dword a s).mem x = s.mem x :=
    fun x hx => pushedAll_mem_of_not_within hstack (by omega) hx
  have hbelow : ∀ x : Addr, x.toNat < 0x80000 → (pushedAll .dword a s).mem x = s.mem x := by
    intro x hx
    refine hpushed x fun hin => ?_
    have := hin.1
    omega
  have hI' := hI.of_below hbelow
  have hflat : FlatMode (pushedAll .dword a s) := hs.congr rfl rfl rfl
  have hstack' : StackAt 0x90000 (a - 32) (pushedAll .dword a s) := by
    unfold pushedAll
    rw [hbytes]
    exact hstack.withStack (by omega) _
  refine leads_flat rfl rfl rfl hflat hI' rfl ?_
  refine leads_flat rfl rfl rfl (hflat.congr rfl rfl rfl) hI' (exec_addEdx _) ?_
  refine leads_flat rfl rfl rfl (hflat.congr rfl rfl (Flags.ofAdd_ifl ..)) hI' rfl ?_
  have hedx : ((s.regs.edx.setDword VIDEO_MEMORY).setDword
      ((s.regs.edx.setDword VIDEO_MEMORY).dword + 640)).dword = textCells := by
    rw [Register.dword_setDword, Register.dword_setDword]
    rfl
  have hcells : textCells.toNat = 0xb8280 := rfl
  have hcs' : HoldsString (pushedAll .dword a s).mem s.regs.ebx.dword cs :=
    holdsString_congr hcs fun i hi => hbelow _ (by bv_omega)
  refine Until.trans (leads_printPmLoop (hflat.congr rfl rfl (Flags.ofAdd_ifl ..))
    (hstack'.congr rfl rfl) hI' rfl hcs' hlen ?_ ?_) ?_
  · refine le_of_le_of_eq ?_ (congrArg BitVec.toNat hedx).symm
    rw [hcells]
    omega
  · refine lt_of_eq_of_lt (congrArg (· + 2 * cs.length) (congrArg BitVec.toNat hedx)) ?_
    show textCells.toNat + 2 * cs.length < 2 ^ 32
    rw [hcells]
    omega
  rintro ⟨u, loc⟩ ⟨hloc, huflat, hustack, humem, hureqs⟩
  obtain rfl : loc = .inside ⟨.printPmDone, 0⟩ := hloc
  have hu : u.mem = paint (pushedAll .dword a s).mem textCells cs :=
    humem.trans (congrArg (fun v => paint (pushedAll .dword a s).mem v cs) hedx)
  -- the cells lie above the stack
  have hkept : ∀ x : Addr, x.toNat < 0x90000 → u.mem x = (pushedAll .dword a s).mem x := by
    intro x hx
    rw [hu]
    refine paint_of_not_within (by rw [hcells]; omega) fun hin => ?_
    have := hin.1
    omega
  have hIu : Intact I m₀ u.mem := hI'.of_below fun x hx => hkept x (by omega)
  have hregs : Stacked .dword u.mem (a - 32) (savedRegs .dword s) := by
    refine (stacked_pushedAll hstack (by omega)).congr ?_ fun x hx => hkept x ?_
    · show a - 32 + 32 ≤ 2 ^ 32
      omega
    · have hhigh : x.toNat < a - 32 + 32 := hx.2
      omega
  have htop : load u.mem .dword (BitVec.ofNat 32 a) = (I.addr back).setWidth Width.dword.bits := by
    rw [← h.top]
    refine load_congr_within (by show a + 4 ≤ _; omega) fun x hx => ?_
    have hlow : a ≤ x.toNat := hx.1
    have hhigh : x.toNat < a + 4 := hx.2
    refine (hkept x (by omega)).trans (hpushed x fun hin => ?_)
    have : x.toNat < a - 32 + 32 := hin.2
    omega
  refine until_popa (P := program) (w := .dword) s rfl rfl (running_at hIu rfl) huflat.runs
    hustack (by omega) hregs ?_
  rw [hbytes, show a - 32 + 32 = a by omega]
  have hstack'' := (hustack.restore (w := .dword) (fun r => (s.regs.get r).read .dword)
    allRegs.reverse).withStack (b := a) (by omega) u.mem
  have hflat' : FlatMode ((u.restore .dword (fun r => (s.regs.get r).read .dword)
      allRegs.reverse).withStack a u.mem) := huflat.congr rfl rfl rfl
  refine until_ret (P := program) (w := .dword) rfl rfl (by decide) (running_at hIu rfl) hflat'.runs
    ⟨hstack'', hroom, htop, h.valid⟩ (.here ?_)
  refine ⟨rfl, hflat'.congr rfl rfl rfl, hstack''.withStack hroom _, fun r hr => ?_, fun x hx => ?_,
    hureqs⟩
  · rw [withStack_reg _ _ _ hr, withStack_reg _ _ _ hr]
    cases r with
    | esp => exact absurd rfl hr
    | _ => exact Register.dword_setDword ..
  · show u.mem x = _
    rw [hu]
    exact paint_congr (hpushed x hx)

end Boot
end DrewOS
