/-
# The processor before and after the switch to protected mode

What a boot sector needs of the processor: registers with their parts of 8, 16 and
32 bits, segments with the base and limit that the processor keeps for them,
segment descriptors, memory access through a segment, and the stack.

A register is its bytes, so the parts never have to be put together again: writing
`AH` leaves `AL` alone by definition.  An access outside its segment's limit, a
write through a segment that is not writable and a selector without a usable
descriptor have no result.  The two flags that no conditional jump of this code
reads, `PF` and `AF`, are left out.
-/

import DrewOS.X86.Cpu

namespace X86

open ByteMem

/-! ### Operand sizes -/

/-- The size of an operand. -/
inductive Width where
  | byte | word | dword
  deriving DecidableEq, Repr

def Width.bytes : Width → ℕ
  | .byte => 1 | .word => 2 | .dword => 4

def Width.bits : Width → ℕ
  | .byte => 8 | .word => 16 | .dword => 32

/-- A value of the given size. -/
abbrev Val (w : Width) : Type := BitVec w.bits

/-! ### Registers -/

/-- A register of 32 bits: its upper half, and the two bytes of its lower half. -/
structure Register where
  upper : Word
  high : Byte
  low : Byte

namespace Register

/-- The lower half, as `AX` of `EAX`. -/
def word (r : Register) : Word := r.high ++ r.low

/-- All of it. -/
def dword (r : Register) : Dword := r.upper ++ r.word

def setWord (r : Register) (v : Word) : Register :=
  { r with high := v.extractLsb' 8 8, low := v.extractLsb' 0 8 }

def setDword (r : Register) (v : Dword) : Register :=
  { r.setWord (v.extractLsb' 0 16) with upper := v.extractLsb' 16 16 }

@[simp] theorem word_setWord (r : Register) (v : Word) : (r.setWord v).word = v :=
  @BitVec.extractLsb'_append_extractLsb' 8 8 v

@[simp] theorem dword_setDword (r : Register) (v : Dword) : (r.setDword v).dword = v := by
  have hword : (r.setDword v).word = v.extractLsb' 0 16 := word_setWord r _
  rw [dword, hword]
  exact @BitVec.extractLsb'_append_extractLsb' 16 16 v

theorem word_high (r : Register) : r.word.extractLsb' 8 8 = r.high :=
  BitVec.extractLsb'_append_eq_left

theorem word_low (r : Register) : r.word.extractLsb' 0 8 = r.low :=
  BitVec.extractLsb'_append_eq_right

@[simp] theorem setWord_word (r : Register) : r.setWord r.word = r := by
  rw [setWord, word_high, word_low]

@[simp] theorem setDword_dword (r : Register) : r.setDword r.dword = r := by
  have hupper : r.dword.extractLsb' 16 16 = r.upper := BitVec.extractLsb'_append_eq_left
  have hword : r.dword.extractLsb' 0 16 = r.word := BitVec.extractLsb'_append_eq_right
  rw [setDword, hupper, hword, setWord_word]

/-- The part of the given size. -/
def read (r : Register) : (w : Width) → Val w
  | .byte => r.low
  | .word => r.word
  | .dword => r.dword

def write (r : Register) : (w : Width) → Val w → Register
  | .byte, v => { r with low := v }
  | .word, v => r.setWord v
  | .dword, v => r.setDword v

end Register

/-- The general registers. -/
structure Regs where
  eax : Register
  ecx : Register
  edx : Register
  ebx : Register
  esp : Register
  ebp : Register
  esi : Register
  edi : Register

def Regs.get (g : Regs) : Reg → Register
  | .eax => g.eax | .ecx => g.ecx | .edx => g.edx | .ebx => g.ebx
  | .esp => g.esp | .ebp => g.ebp | .esi => g.esi | .edi => g.edi

def Regs.set (g : Regs) : Reg → Register → Regs
  | .eax, v => { g with eax := v } | .ecx, v => { g with ecx := v }
  | .edx, v => { g with edx := v } | .ebx, v => { g with ebx := v }
  | .esp, v => { g with esp := v } | .ebp, v => { g with ebp := v }
  | .esi, v => { g with esi := v } | .edi, v => { g with edi := v }

/-! ### Flags -/

/-- The flags that the code reads, and the interrupt flag. -/
structure Flags where
  cf : Bool
  zf : Bool
  sf : Bool
  of : Bool
  ifl : Bool

namespace Flags

variable {w : ℕ}

/-- The flags after the subtraction `a - b`. -/
def ofSub (f : Flags) (a b : BitVec w) : Flags :=
  { f with
    cf := a.ult b
    zf := a - b == 0
    sf := (a - b).msb
    of := a.msb != b.msb && (a - b).msb != a.msb }

/-- The flags after the addition `a + b`. -/
def ofAdd (f : Flags) (a b : BitVec w) : Flags :=
  { f with
    cf := decide (2 ^ w ≤ a.toNat + b.toNat)
    zf := a + b == 0
    sf := (a + b).msb
    of := a.msb == b.msb && (a + b).msb != a.msb }

/-- An addition leaves the interrupt flag. -/
@[simp] theorem ofAdd_ifl (f : Flags) (a b : BitVec w) : (f.ofAdd a b).ifl = f.ifl := rfl

/-- The flags after a logical operation with the result `r`. -/
def ofLogic (f : Flags) (r : BitVec w) : Flags :=
  { f with cf := false, zf := r == 0, sf := r.msb, of := false }

/-- The flags after a shift by more than one place; `OF` is then undefined. -/
def ofShift (f : Flags) (out : Bool) (r : BitVec w) : Flags :=
  { f with cf := out, zf := r == 0, sf := r.msb }

end Flags

/-- The conditions of the conditional jumps. -/
inductive Cond where
  | e | ne | carry | g | l | le
  deriving DecidableEq, Repr

def Cond.holds (f : Flags) : Cond → Bool
  | .e => f.zf
  | .ne => !f.zf
  | .carry => f.cf
  | .g => !f.zf && f.sf == f.of
  | .l => f.sf != f.of
  | .le => f.zf || f.sf != f.of

/-! After a comparison the conditions are those of the operands. -/

section Compare

variable {w : ℕ}

/-- A subtraction as a number, borrowed from `2^w` if it goes below zero. -/
private theorem toNat_sub_cases (a b : BitVec w) : (a - b).toNat =
    if b.toNat ≤ a.toNat then a.toNat - b.toNat else 2 ^ w + a.toNat - b.toNat := by
  have ha := a.isLt
  have hb := b.isLt
  rw [BitVec.toNat_sub]
  split_ifs with h
  · have hsum : 2 ^ w - b.toNat + a.toNat = a.toNat - b.toNat + 2 ^ w := by omega
    rw [hsum, Nat.add_mod_right, Nat.mod_eq_of_lt (by omega)]
  · rw [Nat.mod_eq_of_lt (by omega)]
    omega

/-- The signed comparison that a subtraction leaves in the flags. -/
theorem sf_ne_of_ofSub (f : Flags) (a b : BitVec w) :
    ((f.ofSub a b).sf != (f.ofSub a b).of) = a.slt b := by
  show ((a - b).msb != (a.msb != b.msb && (a - b).msb != a.msb)) = a.slt b
  rcases w with _ | w
  · simp [BitVec.eq_nil a, BitVec.eq_nil b]
  have ha := a.isLt
  have hb := b.isLt
  have hpow : 2 ^ (w + 1) = 2 * 2 ^ w := Nat.pow_succ'
  have hsub := toNat_sub_cases a b
  rw [hpow] at ha hb hsub
  simp only [BitVec.slt, BitVec.toInt_eq_msb_cond, BitVec.msb_eq_decide, Nat.add_sub_cancel, hsub]
  rw [hpow]
  generalize 2 ^ w = M at *
  generalize a.toNat = x at *
  generalize b.toNat = y at *
  rcases Nat.lt_or_ge x M with hx | hx <;> rcases Nat.lt_or_ge y M with hy | hy <;>
    rcases Nat.lt_or_ge x y with hxy | hxy <;>
    simp [Nat.not_le.2, *] <;> omega

/-- Behind a comparison, `jl` jumps if the first operand is less. -/
theorem Cond.l_ofSub (f : Flags) (a b : BitVec w) : Cond.l.holds (f.ofSub a b) = a.slt b :=
  sf_ne_of_ofSub f a b

/-- Behind a comparison, `je` jumps if the operands are equal. -/
theorem Cond.e_ofSub (f : Flags) (a b : BitVec w) : Cond.e.holds (f.ofSub a b) = (a == b) := by
  rw [Bool.eq_iff_iff]
  show (a - b == 0) = true ↔ _
  rw [beq_iff_eq, beq_iff_eq]
  refine ⟨fun h => ?_, fun h => ?_⟩
  · rw [← BitVec.sub_add_cancel a b, h]
    exact BitVec.zero_add b
  · rw [h]
    exact BitVec.sub_self b

/-- Behind a comparison, `jne` jumps if the operands differ. -/
theorem Cond.ne_ofSub (f : Flags) (a b : BitVec w) : Cond.ne.holds (f.ofSub a b) = (a != b) :=
  congrArg not (e_ofSub f a b)

/-- Behind a comparison, `jle` jumps if the first operand is not greater. -/
theorem Cond.le_ofSub (f : Flags) (a b : BitVec w) : Cond.le.holds (f.ofSub a b) = a.sle b := by
  have he : (f.ofSub a b).zf = (a == b) := e_ofSub f a b
  show ((f.ofSub a b).zf || ((f.ofSub a b).sf != (f.ofSub a b).of)) = _
  rw [he, sf_ne_of_ofSub, Bool.eq_iff_iff, Bool.or_eq_true, beq_iff_eq, BitVec.sle_iff_toInt_le,
    BitVec.slt_iff_toInt_lt, ← BitVec.toInt_inj]
  omega

/-- Behind a comparison, `jg` jumps if the second operand is less. -/
theorem Cond.g_ofSub (f : Flags) (a b : BitVec w) : Cond.g.holds (f.ofSub a b) = b.slt a := by
  have hle := le_ofSub f a b
  have hg : Cond.g.holds (f.ofSub a b) = !Cond.le.holds (f.ofSub a b) := by
    unfold Cond.holds
    cases (f.ofSub a b).zf <;> cases (f.ofSub a b).sf <;> cases (f.ofSub a b).of <;> rfl
  rw [hg, hle, BitVec.sle_eq_not_slt, Bool.not_not]

end Compare

/-! ### Memory -/

/-- The number that the `n` bytes from `a` on make, the low byte first. -/
def leNat (m : Mem) : Addr → ℕ → ℕ
  | _, 0 => 0
  | a, n + 1 => (m a).toNat + 256 * leNat m (a + 1) n

/-- The value of the given size at `a`. -/
def load (m : Mem) (w : Width) (a : Addr) : Val w := BitVec.ofNat w.bits (leNat m a w.bytes)

/-- Store `v` at `a`. -/
def store (m : Mem) (w : Width) (a : Addr) (v : Val w) : Mem := fun b =>
  if (b - a).toNat < w.bytes then BitVec.ofNat 8 (v.toNat / 256 ^ (b - a).toNat) else m b

/-- Bytes that are the digits of a number to the base 256. -/
theorem leNat_eq {m : Mem} {a : Addr} {n v : ℕ}
    (h : ∀ i < n, m (a + BitVec.ofNat 32 i) = BitVec.ofNat 8 (v / 256 ^ i)) :
    leNat m a n = v % 256 ^ n := by
  induction n generalizing a v with
  | zero => exact (Nat.mod_one v).symm
  | succ n ih =>
    have hfirst : (m a).toNat = v % 256 := by
      have h0 := h 0 (Nat.succ_pos n)
      rw [add_ofNat_zero, pow_zero, Nat.div_one] at h0
      rw [h0, BitVec.toNat_ofNat]
    have hrest : leNat m (a + 1) n = v / 256 % 256 ^ n := by
      refine ih fun i hi => ?_
      have hnext : a + 1 + BitVec.ofNat 32 i = a + BitVec.ofNat 32 (i + 1) := by
        rw [Nat.add_comm i]
        exact add_ofNat_add a 1 i
      rw [hnext, h (i + 1) (by omega), Nat.div_div_eq_div_mul, Nat.pow_succ']
    rw [leNat, hfirst, hrest, Nat.pow_succ', Nat.mod_mul]

/-- A number in memory depends on its own bytes only. -/
theorem leNat_congr {m m' : Mem} {a : Addr} {n : ℕ}
    (h : ∀ i < n, m' (a + BitVec.ofNat 32 i) = m (a + BitVec.ofNat 32 i)) :
    leNat m' a n = leNat m a n := by
  induction n generalizing a with
  | zero => rfl
  | succ n ih =>
    have h0 := h 0 (Nat.succ_pos n)
    rw [add_ofNat_zero] at h0
    have hrest : leNat m' (a + 1) n = leNat m (a + 1) n := by
      refine ih fun i hi => ?_
      have hnext : a + 1 + BitVec.ofNat 32 i = a + BitVec.ofNat 32 (i + 1) := by
        rw [Nat.add_comm i]
        exact add_ofNat_add a 1 i
      rw [hnext, h (i + 1) (by omega)]
    rw [leNat, leNat, h0, hrest]

/-- Loading a value looks at its own bytes only. -/
theorem load_congr {m m' : Mem} {w : Width} {a : Addr}
    (h : ∀ i < w.bytes, m' (a + BitVec.ofNat 32 i) = m (a + BitVec.ofNat 32 i)) :
    load m' w a = load m w a :=
  congrArg (BitVec.ofNat w.bits) (leNat_congr h)

/-- The bytes of a stored value, the lowest first. -/
theorem store_byte (m : Mem) {w : Width} (a : Addr) (v : Val w) {i : ℕ} (hi : i < w.bytes) :
    store m w a v (a + BitVec.ofNat 32 i) = BitVec.ofNat 8 (v.toNat / 256 ^ i) := by
  have hw : w.bytes ≤ 4 := by cases w <;> decide
  have hdist : (a + BitVec.ofNat 32 i - a).toNat = i := by bv_omega
  rw [store, hdist, if_pos hi]

/-- Bytes outside the value are kept. -/
theorem store_of_ge (m : Mem) {w : Width} {a b : Addr} (v : Val w)
    (h : w.bytes ≤ (b - a).toNat) : store m w a v b = m b :=
  if_neg (Nat.not_lt.2 h)

/-- **A stored value is read back.** -/
theorem load_store (m : Mem) (w : Width) (a : Addr) (v : Val w) :
    load (store m w a v) w a = v := by
  have hbits : 256 ^ w.bytes = 2 ^ w.bits := by cases w <;> rfl
  have hle := @leNat_eq (store m w a v) a w.bytes v.toNat fun i hi => store_byte m a v hi
  rw [hbits, Nat.mod_eq_of_lt v.isLt] at hle
  rw [load, hle, BitVec.ofNat_toNat, BitVec.setWidth_eq]

/-! ### Segments -/

/-- The segment registers. -/
inductive SReg where
  | cs | ds | es | fs | gs | ss
  deriving DecidableEq, Repr

/-- What the processor keeps for a segment register.  `big` is the operand size of
a code segment and the size of the stack pointer of a stack segment. -/
structure Segment where
  selector : Word
  base : Addr
  limit : Dword
  code : Bool
  writable : Bool
  big : Bool

/-- What a segment register holds in real mode. -/
def Segment.real (selector : Word) (code : Bool) : Segment where
  selector := selector
  base := selector.setWidth 32 <<< 4
  limit := 0xffff
  code := code
  writable := true
  big := false

/-- The linear address of `n` bytes at an offset, which must all lie below the limit. -/
def Segment.linear (g : Segment) (off : Dword) (n : ℕ) : Option Addr :=
  if off.toNat + n ≤ g.limit.toNat + 1 then some (g.base + off) else none

structure Segs where
  cs : Segment
  ds : Segment
  es : Segment
  fs : Segment
  gs : Segment
  ss : Segment

def Segs.set (g : Segs) : SReg → Segment → Segs
  | .cs, v => { g with cs := v } | .ds, v => { g with ds := v } | .es, v => { g with es := v }
  | .fs, v => { g with fs := v } | .gs, v => { g with gs := v } | .ss, v => { g with ss := v }

/-- A segment descriptor. -/
structure Descriptor where
  base : Addr
  limit : Dword
  present : Bool
  /-- A code or data segment, not a gate or another structure of the system. -/
  segment : Bool
  code : Bool
  /-- Readable, of a code segment; writable, of a data segment. -/
  access : Bool
  big : Bool
  deriving DecidableEq

/-- The descriptor in the 8 bytes from `a` on.  With the granularity bit the limit is
counted in pages of 4096 bytes. -/
def Descriptor.read (m : Mem) (a : Addr) : Descriptor :=
  let limit := (m a).toNat + 2 ^ 8 * (m (a + 1)).toNat + 2 ^ 16 * ((m (a + 6)).toNat % 16)
  { base := m (a + 7) ++ m (a + 4) ++ m (a + 3) ++ m (a + 2)
    limit := BitVec.ofNat 32 (if (m (a + 6)).getLsbD 7 then 4096 * limit + 4095 else limit)
    present := (m (a + 5)).getLsbD 7
    segment := (m (a + 5)).getLsbD 4
    code := (m (a + 5)).getLsbD 3
    access := (m (a + 5)).getLsbD 1
    big := (m (a + 6)).getLsbD 6 }

/-- The register that `LGDT` loads. -/
structure Gdtr where
  limit : Word
  base : Addr

/-- The descriptor that a selector names, if it is one of the table's and not the
first, which is reserved. -/
def Gdtr.lookup (g : Gdtr) (m : Mem) (selector : Word) : Option Descriptor :=
  let index := selector.toNat / 8
  if index ≠ 0 ∧ selector.getLsbD 2 = false ∧ 8 * index + 7 ≤ g.limit.toNat then
    some (Descriptor.read m (g.base + BitVec.ofNat 32 (8 * index)))
  else
    none

/-- What a segment register holds after a selector has been loaded in protected
mode, if the descriptor allows it. -/
def Descriptor.load (d : Descriptor) (r : SReg) (selector : Word) : Option Segment :=
  let allowed := match r with
    | .cs => d.code
    | .ss => !d.code && d.access
    | _ => !d.code || d.access
  if d.present && d.segment && allowed then
    some ⟨selector, d.base, d.limit, d.code, !d.code && d.access, d.big⟩
  else
    none

end X86
