/-
# The stack of a machine that switches modes

`StackAt E a s`: the stack grows down from `E`, and its pointer is `a`; both are
numbers, below the limit of the stack segment, so no push or pop above `0` and up
to `E` faults or wraps.  What lies on the stack is a list, the top first
(`Stacked`); pushes put values in front of it (`push_eq`, `stacked_pushMem`), and
pops take them off (`pop_eq`, `popAll_eq`), for code of either size.
-/

import DrewOS.X86.Asm

namespace X86
namespace Asm

open ByteMem

variable {ε : Type} {E a : ℕ} {w : Width} {s : State ε}

/-- The stack grows down from `E`, and its pointer is `a`. -/
structure StackAt (E a : ℕ) (s : State ε) : Prop where
  base : s.segs.ss.base = 0
  writable : s.segs.ss.writable = true
  limit : E ≤ s.segs.ss.limit.toNat + 1
  size : E < if s.segs.ss.big then 2 ^ 32 else 2 ^ 16
  le : a ≤ E
  sp : s.spPlus 0 = BitVec.ofNat 32 a

/-- The state with another stack pointer and memory. -/
def State.withStack (s : State ε) (a : ℕ) (m : Mem) : State ε :=
  { s.setSp (BitVec.ofNat 32 a) with mem := m }

@[simp] theorem withStack_mem (s : State ε) (a : ℕ) (m : Mem) : (s.withStack a m).mem = m := rfl

theorem withStack_reg (s : State ε) (a : ℕ) (m : Mem) {r : Reg} (hr : r ≠ .esp) :
    (s.withStack a m).regs.get r = s.regs.get r := by
  cases r with
  | esp => exact absurd rfl hr
  | _ => rfl

/-- Only the last stack counts. -/
theorem withStack_withStack (s : State ε) (a b : ℕ) (m m' : Mem) :
    (s.withStack a m).withStack b m' = s.withStack b m' := by
  unfold State.withStack State.setSp
  by_cases hbig : s.segs.ss.big <;> simp only [hbig, if_true, Bool.false_eq_true, if_false] <;> rfl

/-- Setting a register and setting the stack commute. -/
theorem withStack_setReg (s : State ε) (a : ℕ) (m : Mem) {r : Reg} (hr : r ≠ .esp)
    (v : Register) : (s.withStack a m).setReg r v = (s.setReg r v).withStack a m := by
  cases r with
  | esp => exact absurd rfl hr
  | _ => rfl

/-- A stack pointer at `a` and no change of memory. -/
theorem withStack_self (h : StackAt E a s) : s.withStack a s.mem = s := by
  have hsp := h.sp
  unfold State.spPlus at hsp
  unfold State.withStack State.setSp
  by_cases hbig : s.segs.ss.big
  · rw [if_pos hbig] at hsp ⊢
    have hesp : s.regs.esp.dword = BitVec.ofNat 32 a := (BitVec.add_zero _).symm.trans hsp
    rw [← hesp, Register.setDword_dword]
  · rw [if_neg hbig] at hsp ⊢
    have hesp : (BitVec.ofNat 32 a).setWidth 16 = s.regs.esp.word := by
      rw [← hsp]
      bv_omega
    rw [hesp, Register.setWord_word]

/-! ### The pointer -/

/-- The stack pointer is a 32-bit number. -/
theorem StackAt.lt (h : StackAt E a s) : a < 2 ^ 32 := by
  have := h.le
  have := h.size
  split_ifs at this <;> omega

/-- The pointer moved down. -/
theorem StackAt.spPlus_sub (h : StackAt E a s) {n : ℕ} (hn : n ≤ a) :
    s.spPlus (-BitVec.ofNat 32 n) = BitVec.ofNat 32 (a - n) := by
  have hsp := h.sp
  have hsize := h.size
  have hle := h.le
  unfold State.spPlus at hsp ⊢
  by_cases hbig : s.segs.ss.big
  · rw [if_pos hbig] at hsp hsize ⊢
    bv_omega
  · rw [if_neg hbig] at hsp hsize ⊢
    bv_omega

/-- The pointer moved up. -/
theorem StackAt.spPlus_add (h : StackAt E a s) {n : ℕ} (hn : a + n ≤ E) :
    s.spPlus (BitVec.ofNat 32 n) = BitVec.ofNat 32 (a + n) := by
  have hsp := h.sp
  have hsize := h.size
  unfold State.spPlus at hsp ⊢
  by_cases hbig : s.segs.ss.big
  · rw [if_pos hbig] at hsp hsize ⊢
    bv_omega
  · rw [if_neg hbig] at hsp hsize ⊢
    bv_omega

/-- The stack pointer can be put at any place below the end. -/
theorem StackAt.withStack (h : StackAt E a s) {b : ℕ} (hb : b ≤ E) (m : Mem) :
    StackAt E b (s.withStack b m) := by
  refine ⟨h.base, h.writable, h.limit, h.size, hb, ?_⟩
  have hsize := h.size
  unfold State.withStack State.setSp State.spPlus
  by_cases hbig : s.segs.ss.big
  · simp only [hbig, if_true, Register.dword_setDword]
    exact BitVec.add_zero _
  · rw [if_neg hbig] at hsize
    simp only [hbig, Bool.false_eq_true, if_false, Register.word_setWord]
    bv_omega

/-- Only the stack segment and the stack pointer matter. -/
theorem StackAt.congr {t : State ε} (h : StackAt E a s) (hss : t.segs.ss = s.segs.ss)
    (hsp : t.spPlus 0 = s.spPlus 0) : StackAt E a t :=
  ⟨hss ▸ h.base, hss ▸ h.writable, hss ▸ h.limit, hss ▸ h.size, h.le, hsp.trans h.sp⟩

/-- Other registers than `ESP` do not move the stack pointer. -/
theorem StackAt.setReg (h : StackAt E a s) {r : Reg} (hr : r ≠ .esp) (v : Register) :
    StackAt E a (s.setReg r v) := by
  refine h.congr rfl ?_
  cases r with
  | esp => exact absurd rfl hr
  | _ => rfl

/-- An access below the end of the stack is within the stack segment. -/
theorem StackAt.linear (h : StackAt E a s) {b n : ℕ} (hb : b + n ≤ E) :
    s.segs.ss.linear (BitVec.ofNat 32 b) n = some (BitVec.ofNat 32 b) := by
  have hlimit := h.limit
  have hsize := h.size
  have hlt : b < 2 ^ 32 := by split_ifs at hsize <;> omega
  have hb' : (BitVec.ofNat 32 b).toNat = b := by
    rw [BitVec.toNat_ofNat, Nat.mod_eq_of_lt hlt]
  rw [Segment.linear, hb', if_pos (by omega), h.base]
  exact congrArg some (BitVec.zero_add _)

/-- **A push** stores the value below the pointer. -/
theorem push_eq (h : StackAt E a s) (hn : w.bytes ≤ a) (v : Val w) :
    s.push w v = some (s.withStack (a - w.bytes)
      (store s.mem w (BitVec.ofNat 32 (a - w.bytes)) v)) := by
  have hle := h.le
  rw [State.push, h.spPlus_sub hn, h.writable, if_pos rfl, h.linear (by omega)]
  rfl

/-- **A pop** reads the value at the pointer. -/
theorem pop_eq (h : StackAt E a s) (hn : a + w.bytes ≤ E) :
    s.pop w = some (load s.mem w (BitVec.ofNat 32 a), s.withStack (a + w.bytes) s.mem) := by
  rw [State.pop, h.sp, h.linear hn, h.spPlus_add hn]
  rfl

/-! ### What lies on the stack -/

/-- From `a` on lie the values `vs`. -/
def Stacked (w : Width) (m : Mem) : ℕ → List (Val w) → Prop
  | _, [] => True
  | a, v :: vs => load m w (BitVec.ofNat 32 a) = v ∧ Stacked w m (a + w.bytes) vs

/-- The memory after the values `vs` have been pushed from `a` on. -/
def pushMem (w : Width) : List (Val w) → ℕ → Mem → Mem
  | [], _, m => m
  | v :: vs, a, m => pushMem w vs (a - w.bytes) (store m w (BitVec.ofNat 32 (a - w.bytes)) v)

/-- The addresses of `n` bytes from `a` on. -/
def Within (a n : ℕ) (x : Addr) : Prop := a ≤ x.toNat ∧ x.toNat < a + n

/-- Loading a value looks at its own bytes only. -/
theorem load_congr_within {m m' : Mem} {a : ℕ} (ha : a + w.bytes ≤ 2 ^ 32)
    (h : ∀ x, Within a w.bytes x → m' x = m x) :
    load m' w (BitVec.ofNat 32 a) = load m w (BitVec.ofNat 32 a) := by
  refine load_congr fun i hi => h _ ?_
  have hat : (BitVec.ofNat 32 a + BitVec.ofNat 32 i).toNat = a + i := by bv_omega
  exact ⟨by omega, by omega⟩

/-- Values on the stack stay if their bytes do. -/
theorem Stacked.congr {m m' : Mem} {vs : List (Val w)} (h : Stacked w m a vs)
    (ha : a + w.bytes * vs.length ≤ 2 ^ 32)
    (hmem : ∀ x, Within a (w.bytes * vs.length) x → m' x = m x) : Stacked w m' a vs := by
  induction vs generalizing a with
  | nil => trivial
  | cons v vs ih =>
    rw [List.length_cons, Nat.mul_succ] at ha hmem
    refine ⟨?_, ih h.2 (by omega) fun x hx => hmem x ⟨?_, ?_⟩⟩
    · rw [← h.1]
      refine load_congr_within (by omega) fun x hx => hmem x ⟨hx.1, ?_⟩
      have := hx.2
      omega
    · have := hx.1
      omega
    · have := hx.2
      omega

/-- Values above each other lie there as one list. -/
theorem Stacked.append {m : Mem} {vs us : List (Val w)} (h : Stacked w m a vs)
    (h' : Stacked w m (a + w.bytes * vs.length) us) : Stacked w m a (vs ++ us) := by
  induction vs generalizing a with
  | nil => exact h'
  | cons v vs ih =>
    rw [List.length_cons, Nat.mul_succ] at h'
    refine ⟨h.1, ih h.2 ?_⟩
    rwa [Nat.add_assoc, Nat.add_comm w.bytes]

/-- A push puts its value on top. -/
theorem Stacked.push {m : Mem} {vs : List (Val w)} (h : Stacked w m a vs) (hle : w.bytes ≤ a)
    (ha : a + w.bytes * vs.length ≤ 2 ^ 32) (v : Val w) :
    Stacked w (store m w (BitVec.ofNat 32 (a - w.bytes)) v) (a - w.bytes) (v :: vs) := by
  refine ⟨load_store .., ?_⟩
  rw [Nat.sub_add_cancel hle]
  refine h.congr ha fun x hx => store_of_ge m v ?_
  have hat : (BitVec.ofNat 32 (a - w.bytes)).toNat = a - w.bytes := by
    have : 0 < w.bytes := by cases w <;> decide
    bv_omega
  have hlow := hx.1
  rw [BitVec.toNat_sub, hat]
  omega

/-- Pushes change nothing but the bytes they push. -/
theorem pushMem_of_not_within (vs : List (Val w)) {m : Mem} (hle : w.bytes * vs.length ≤ a)
    (ha : a ≤ 2 ^ 32) {x : Addr}
    (hx : ¬ Within (a - w.bytes * vs.length) (w.bytes * vs.length) x) :
    pushMem w vs a m x = m x := by
  induction vs generalizing a m with
  | nil => rfl
  | cons v vs ih =>
    have hw : 0 < w.bytes := by cases w <;> decide
    rw [List.length_cons, Nat.mul_succ] at hle hx
    rw [pushMem, ih (by omega) (by omega)]
    · refine store_of_ge m v ?_
      have hat : (BitVec.ofNat 32 (a - w.bytes)).toNat = a - w.bytes := by bv_omega
      unfold Within at hx
      rw [BitVec.toNat_sub, hat]
      omega
    · unfold Within at hx ⊢
      omega

/-- **What has been pushed** lies there, the last value on top. -/
theorem stacked_pushMem (vs : List (Val w)) {m : Mem} (hle : w.bytes * vs.length ≤ a)
    (ha : a ≤ 2 ^ 32) :
    Stacked w (pushMem w vs a m) (a - w.bytes * vs.length) vs.reverse := by
  induction vs generalizing a m with
  | nil => trivial
  | cons v vs ih =>
    rw [List.length_cons, Nat.mul_succ] at hle
    have hrest := ih (a := a - w.bytes) (m := store m w (BitVec.ofNat 32 (a - w.bytes)) v)
      (by omega) (by omega)
    have hbottom : a - w.bytes - w.bytes * vs.length = a - w.bytes * (v :: vs).length := by
      rw [List.length_cons, Nat.mul_succ]
      omega
    rw [hbottom] at hrest
    rw [List.reverse_cons]
    refine hrest.append ⟨?_, trivial⟩
    have hat : a - w.bytes * (v :: vs).length + w.bytes * vs.reverse.length = a - w.bytes := by
      rw [List.length_cons, List.length_reverse, Nat.mul_succ]
      omega
    -- the later pushes stay below the first
    have hkept : load (pushMem w (v :: vs) a m) w (BitVec.ofNat 32 (a - w.bytes)) =
        load (store m w (BitVec.ofNat 32 (a - w.bytes)) v) w (BitVec.ofNat 32 (a - w.bytes)) := by
      refine load_congr_within (by omega) fun x hx => ?_
      refine pushMem_of_not_within vs (by omega) (by omega) fun hx' => ?_
      have := hx.1
      have := hx'.2
      omega
    rw [hat]
    exact hkept.trans (load_store ..)

/-- **Pushing several values.** -/
theorem pushAll_eq {vs : List (Val w)} (h : StackAt E a s) (hle : w.bytes * vs.length ≤ a) :
    s.pushAll w vs = some (s.withStack (a - w.bytes * vs.length) (pushMem w vs a s.mem)) := by
  induction vs generalizing a s with
  | nil => exact congrArg some (withStack_self h).symm
  | cons v vs ih =>
    rw [List.length_cons, Nat.mul_succ] at hle
    have hbottom : a - w.bytes - w.bytes * vs.length = a - w.bytes * (v :: vs).length := by
      rw [List.length_cons, Nat.mul_succ]
      omega
    have hle' := h.le
    have hrest := ih (h.withStack (b := a - w.bytes) (by omega)
      (store s.mem w (BitVec.ofNat 32 (a - w.bytes)) v)) (by omega)
    rw [hbottom, withStack_withStack, withStack_mem] at hrest
    rw [State.pushAll, push_eq h (by omega), Option.bind_some, hrest]
    rfl

/-- The registers after `rs` have been popped, of which `vals` are the values. -/
def State.restore (s : State ε) (w : Width) (vals : Reg → Val w) : List Reg → State ε
  | [] => s
  | r :: rs =>
    (if r = .esp then s else s.setReg r ((s.regs.get r).write w (vals r))).restore w vals rs

/-- Restoring registers does not touch the stack. -/
theorem withStack_restore (s : State ε) (b : ℕ) (m : Mem) (vals : Reg → Val w) (rs : List Reg) :
    (s.withStack b m).restore w vals rs = (s.restore w vals rs).withStack b m := by
  induction rs generalizing s with
  | nil => rfl
  | cons r rs ih =>
    rw [State.restore, State.restore]
    split_ifs with hr
    · exact ih s
    · rw [withStack_reg s b m hr, withStack_setReg s b m hr]
      exact ih _

/-- Restoring registers does not move the stack pointer. -/
theorem StackAt.restore (h : StackAt E a s) (vals : Reg → Val w) (rs : List Reg) :
    StackAt E a (s.restore w vals rs) := by
  induction rs generalizing s with
  | nil => exact h
  | cons r rs ih =>
    rw [State.restore]
    split_ifs with hr
    · exact ih h
    · exact ih (h.setReg hr _)

/-- **Popping several registers.** -/
theorem popAll_eq {vals : Reg → Val w} {rs : List Reg} (h : StackAt E a s)
    (hle : a + w.bytes * rs.length ≤ E) (hs : Stacked w s.mem a (rs.map vals)) :
    s.popAll w rs = some ((s.restore w vals rs).withStack (a + w.bytes * rs.length) s.mem) := by
  induction rs generalizing a s with
  | nil => exact congrArg some (withStack_self h).symm
  | cons r rs ih =>
    rw [List.length_cons, Nat.mul_succ] at hle
    have htop : a + w.bytes + w.bytes * rs.length = a + w.bytes * (r :: rs).length := by
      rw [List.length_cons, Nat.mul_succ]
      omega
    rw [State.popAll, pop_eq h (by omega), Option.bind_some, hs.1, State.restore]
    split_ifs with hr
    · have hrest := ih (h.withStack (b := a + w.bytes) (by omega) s.mem) (by omega) hs.2
      rw [htop, withStack_restore, withStack_withStack] at hrest
      exact hrest
    · have hset := (h.setReg hr ((s.regs.get r).write w (vals r))).withStack
        (b := a + w.bytes) (by omega) s.mem
      have hrest := ih hset (by omega) hs.2
      rw [htop, withStack_restore, withStack_withStack] at hrest
      show State.popAll w rs ((s.withStack (a + w.bytes) s.mem).setReg r
        (((s.withStack (a + w.bytes) s.mem).regs.get r).write w (vals r))) = _
      rw [withStack_reg s _ _ hr, withStack_setReg s _ _ hr]
      exact hrest

end Asm
end X86
