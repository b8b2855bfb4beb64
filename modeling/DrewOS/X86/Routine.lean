/-
# Rules for code

One step of a run is one instruction (`until_instr`), and for the instructions that
use the stack there is a rule each, in terms of what lies on it: `call` and `ret`
(`until_call`, `until_ret`), `PUSHA` and `POPA` (`until_pusha`, `until_popa`).  A routine
is entered with its return address on top of the stack (`Entered`).
-/

import DrewOS.Transition.Until
import DrewOS.X86.Frames

namespace X86
namespace Asm

open ByteMem Transition

variable {L D ε : Type} {P : Program L D} {I : Image P} {F : Firmware ε}
  {Inv Q : Config L ε → Prop} {pc back : Pc L} {s : State ε} {E a : ℕ}

/-- **One instruction.** -/
theorem until_instr {i : Instr L D} {c : Config L ε} (hi : (P.code pc.label)[pc.index]? = some i)
    (hInv : Inv ⟨s, .inside pc⟩) (hruns : s.Runs (P.bits pc.label))
    (hexec : exec I F pc i s = some c) (h : Until (step I F) Inv Q c) :
    Until (step I F) Inv Q ⟨s, .inside pc⟩ := by
  refine .next hInv ?_ h
  show (if s.Runs (P.bits pc.label) then
    (P.code pc.label)[pc.index]?.bind fun i => exec I F pc i s else none) = _
  rw [if_pos hruns, hi, Option.bind_some, hexec]

/-- The state in which `f` is entered by a call at `pc`. -/
def called (I : Image P) (pc : Pc L) (a : ℕ) (s : State ε) : State ε :=
  s.withStack (a - (P.bits pc.label).bytes) (store s.mem (P.bits pc.label)
    (BitVec.ofNat 32 (a - (P.bits pc.label).bytes))
    ((I.addr (P.succ pc)).setWidth (P.bits pc.label).bits))

/-- The return address `back` is on top of the stack, at `a`. -/
structure Entered (I : Image P) (w : Width) (E a : ℕ) (back : Pc L) (s : State ε) : Prop where
  stack : StackAt E a s
  room : a + w.bytes ≤ E
  top : load s.mem w (BitVec.ofNat 32 a) = (I.addr back).setWidth w.bits
  valid : back.index < (P.code back.label).length

/-- `call` pushes the return address. -/
theorem pushReturn_eq (hstack : StackAt E a s) (hroom : (P.bits pc.label).bytes ≤ a) :
    pushReturn I pc s = some (called I pc a s) :=
  push_eq hstack hroom _

/-- **A call.** -/
theorem until_call {f : L} (hi : (P.code pc.label)[pc.index]? = some (.call f))
    (hInv : Inv ⟨s, .inside pc⟩) (hruns : s.Runs (P.bits pc.label)) (hstack : StackAt E a s)
    (hroom : (P.bits pc.label).bytes ≤ a)
    (h : Until (step I F) Inv Q ⟨called I pc a s, .inside ⟨f, 0⟩⟩) :
    Until (step I F) Inv Q ⟨s, .inside pc⟩ := by
  refine until_instr hi hInv hruns ?_ h
  show (pushReturn I pc s).map _ = _
  rw [pushReturn_eq hstack hroom]
  rfl

/-- A call of code outside the program. -/
theorem until_callOut {x : Addr} (hi : (P.code pc.label)[pc.index]? = some (.callOut x))
    (hInv : Inv ⟨s, .inside pc⟩) (hruns : s.Runs (P.bits pc.label)) (hstack : StackAt E a s)
    (hroom : (P.bits pc.label).bytes ≤ a)
    (h : Until (step I F) Inv Q ⟨called I pc a s, .outside x⟩) :
    Until (step I F) Inv Q ⟨s, .inside pc⟩ := by
  refine until_instr hi hInv hruns ?_ h
  show (pushReturn I pc s).map _ = _
  rw [pushReturn_eq hstack hroom]
  rfl

/-- Behind `call` the routine is entered, with its return address on the stack. -/
theorem entered_called (pc : Pc L) (hstack : StackAt E a s)
    (hroom : (P.bits pc.label).bytes ≤ a)
    (hvalid : (P.succ pc).index < (P.code (P.succ pc).label).length) :
    Entered I (P.bits pc.label) E (a - (P.bits pc.label).bytes) (P.succ pc) (called I pc a s) := by
  have hle := hstack.le
  exact ⟨hstack.withStack (by omega) _, by omega, load_store .., hvalid⟩

/-- **The return.** -/
theorem until_ret {w : Width} (hi : (P.code pc.label)[pc.index]? = some .ret)
    (hbits : P.bits pc.label = w) (hw : 16 ≤ w.bits) (hInv : Inv ⟨s, .inside pc⟩)
    (hruns : s.Runs w) (h : Entered I w E a back s)
    (hrest : Until (step I F) Inv Q ⟨s.withStack (a + w.bytes) s.mem, .inside back⟩) :
    Until (step I F) Inv Q ⟨s, .inside pc⟩ := by
  subst hbits
  refine until_instr hi hInv hruns ?_ hrest
  show (s.pop (P.bits pc.label)).bind _ = _
  rw [pop_eq h.stack h.room, Option.bind_some]
  -- the address fits into the word that was pushed
  have hlt := I.addr_lt back h.valid
  have haddr : ((I.addr back).setWidth (P.bits pc.label).bits).setWidth 32 = I.addr back := by
    have hpow : 2 ^ 16 ≤ 2 ^ (P.bits pc.label).bits := Nat.pow_le_pow_right (by decide) hw
    have hword : ((I.addr back).setWidth (P.bits pc.label).bits).toNat = (I.addr back).toNat := by
      rw [BitVec.toNat_setWidth, Nat.mod_eq_of_lt (by omega)]
    refine BitVec.eq_of_toNat_eq ?_
    rw [BitVec.toNat_setWidth, hword, Nat.mod_eq_of_lt (by omega)]
  show (I.pcAt ((load s.mem _ _).setWidth 32)).map _ = _
  rw [h.top, haddr, I.pcAt_addr back h.valid]
  rfl

/-- The values that `PUSHA` leaves on the stack, the top first. -/
def savedRegs (w : Width) (s : State ε) : List (Val w) :=
  allRegs.reverse.map fun r => (s.regs.get r).read w

/-- The state after `PUSHA`. -/
def pushedAll (w : Width) (a : ℕ) (s : State ε) : State ε :=
  s.withStack (a - w.bytes * 8) (pushMem w (allRegs.map fun r => (s.regs.get r).read w) a s.mem)

/-- **`PUSHA`.** -/
theorem until_pusha {w : Width} (hi : (P.code pc.label)[pc.index]? = some .pusha)
    (hbits : P.bits pc.label = w) (hInv : Inv ⟨s, .inside pc⟩) (hruns : s.Runs w)
    (hstack : StackAt E a s) (hroom : w.bytes * 8 ≤ a)
    (h : Until (step I F) Inv Q ⟨pushedAll w a s, .inside (P.succ pc)⟩) :
    Until (step I F) Inv Q ⟨s, .inside pc⟩ := by
  subst hbits
  refine until_instr hi hInv hruns ?_ h
  show (s.pushAll _ _).map _ = _
  rw [pushAll_eq hstack hroom]
  rfl

/-- Behind `pusha` the eight registers lie on the stack. -/
theorem stacked_pushedAll {w : Width} (hstack : StackAt E a s) (hroom : w.bytes * 8 ≤ a) :
    Stacked w (pushedAll w a s).mem (a - w.bytes * 8) (savedRegs w s) := by
  have h := stacked_pushMem (allRegs.map fun r => (s.regs.get r).read w)
    (m := s.mem) hroom hstack.lt.le
  rwa [← List.map_reverse] at h

/-- `pusha` writes to the stack only. -/
theorem pushedAll_mem_of_not_within {w : Width} (hstack : StackAt E a s) (hroom : w.bytes * 8 ≤ a)
    {x : Addr} (hx : ¬ Within (a - w.bytes * 8) (w.bytes * 8) x) :
    (pushedAll w a s).mem x = s.mem x :=
  pushMem_of_not_within (allRegs.map fun r => (s.regs.get r).read w) hroom hstack.lt.le hx

/-- **`POPA`**, when the registers of `s₀` lie on the stack. -/
theorem until_popa {w : Width} (s₀ : State ε) (hi : (P.code pc.label)[pc.index]? = some .popa)
    (hbits : P.bits pc.label = w) (hInv : Inv ⟨s, .inside pc⟩) (hruns : s.Runs w)
    (hstack : StackAt E a s) (hroom : a + w.bytes * 8 ≤ E)
    (hsaved : Stacked w s.mem a (savedRegs w s₀))
    (h : Until (step I F) Inv Q
      ⟨(s.restore w (fun r => (s₀.regs.get r).read w) allRegs.reverse).withStack
        (a + w.bytes * 8) s.mem, .inside (P.succ pc)⟩) :
    Until (step I F) Inv Q ⟨s, .inside pc⟩ := by
  subst hbits
  refine until_instr hi hInv hruns ?_ h
  show (s.popAll _ allRegs.reverse).map _ = _
  rw [popAll_eq hstack hroom hsaved]
  rfl

end Asm
end X86
