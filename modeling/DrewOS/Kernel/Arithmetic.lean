/-
# The arithmetic of `_itoa`

`DrewOS.Kernel.Itoa` computes with words that wrap around.  Here the same functions
of `src/kernel/dmath.c` and `src/kernel/util.c` are written with every step of their
arithmetic (`result_itoaBaseCalc` says that nothing else is different), and the
steps are followed: which of them could leave their type, and which does.

A character of the text is written by the steps that compute it; the stores
themselves are not arithmetic.
-/

import DrewOS.Kernel.Itoa
import DrewOS.Number.Calc

namespace DrewOS

open ByteMem Arith

/-! ### The functions with their steps -/

/-- `if (exponent & 1) result *= base;` -/
def ipowRoundCalc (base exponent result : Dword) : Calc 32 Dword :=
  if exponent &&& 1 ≠ 0 then Calc.mulU result base else pure result

/-- The loop of `ipow`, at most `n` rounds. -/
def ipowLoopCalc : ℕ → Dword → Dword → Dword → Calc 32 Dword
  | 0, _, _, _ => Calc.fail
  | n + 1, base, exponent, result => do
    let result ← ipowRoundCalc base exponent result
    if exponent >>> 1 = 0 then
      pure result
    else
      let base ← Calc.mulU base base
      ipowLoopCalc n base (exponent >>> 1) result

/-- `ipow(base, exponent)`. -/
def ipowCalc (base exponent : Dword) : Calc 32 Dword := ipowLoopCalc 32 base exponent 1

/-- The loop of `ilog`, at most `n` rounds. -/
def ilogLoopCalc : ℕ → Dword → Dword → Dword → Calc 32 Dword
  | 0, _, _, _ => Calc.fail
  | n + 1, base, x, result =>
    if base ≤ x then do
      let x ← Calc.divU x base
      let result ← Calc.addU result 1
      ilogLoopCalc n base x result
    else
      pure result

/-- `ilog(base, x)`. -/
def ilogCalc (base x : Dword) : Calc 32 Dword := ilogLoopCalc 32 base x 0

/-- `abs(x)`. -/
def absCalc (x : Dword) : Calc 32 Dword := if (0 : Dword).sle x then pure x else Calc.neg x

/-- `for (uint8_t i = 0; i < pfx_len; i++) buf[offset++] = pfx[i];`, from `i` on. -/
def prefixCalc : ℕ → List Byte → Byte → Buffer → Calc 32 Buffer
  | _, [], _, buf => pure buf
  | offset, c :: cs, i, buf => do
    let _ ← Calc.addU (BitVec.ofNat 32 offset) 1
    let i ← Calc.add (i.setWidth 32) 1
    let i ← Calc.narrowU 8 i
    prefixCalc (offset + 1) cs i (Function.update buf offset c)

/-- `digit < 10 ? '0' : ('a' - 10)`. -/
def digitOffsetCalc (digit : Dword) : Calc 32 Dword :=
  if digit.slt 10 then pure 0x30 else Calc.sub 0x61 10

/-- `(char)(digit + digit_offset)`. -/
def digitCodeCalc (digit : Dword) : Calc 32 Byte := do
  let digitOffset ← digitOffsetCalc digit
  let code ← Calc.add digit digitOffset
  Calc.narrow 8 code

/-- The loop over the digits, with `n` of them left.  `x` is signed and `magnitude` is
not, so `x` is converted for the division and for the remainder, and back. -/
def digitLoopCalc (base : Dword) : ℕ → Dword → Dword → ℕ → Buffer → Calc 32 Buffer
  | 0, _, _, _, buf => pure buf
  | n + 1, x, magnitude, offset, buf => do
    let dividend ← Calc.toUnsigned x
    let quotient ← Calc.divU dividend magnitude
    let digit ← Calc.toSigned quotient
    let digit ← Calc.digit digit base
    let code ← digitCodeCalc digit
    let dividend ← Calc.toUnsigned x
    let remainder ← Calc.modU dividend magnitude
    let x ← Calc.toSigned remainder
    let magnitude ← Calc.divU magnitude base
    let _ ← Calc.addU (BitVec.ofNat 32 offset) 1
    digitLoopCalc base n x magnitude (offset + 1) (Function.update buf offset code)

/-- `if (x < 0) { buf[0] = '-'; offset++; x = -x; }`: the new value of `x`. -/
def signCalc (x : Dword) : Calc 32 Dword :=
  if x.slt 0 then do
    let _ ← Calc.addU 0 1
    Calc.neg x
  else
    pure x

/-- `if (x < 0) out_size++;` -/
def outSizeCalc (x outSize : Dword) : Calc 32 Dword :=
  if x.slt 0 then Calc.addU outSize 1 else pure outSize

/-- What `_itoa` does with a buffer that is large enough. -/
def storeCalc (x : Dword) (base : Byte) (buf : Buffer) (ndigit outSize : Dword) :
    Calc 32 (Dword × Buffer) := do
  let pfx := getPrefix base
  let sign := if x.slt 0 then [0x2d] else []
  let buf := putBytes 0 sign buf
  let x ← signCalc x
  let buf ← prefixCalc sign.length pfx 0 buf
  let offset := sign.length + pfx.length
  let exponent ← Calc.subU ndigit 1
  let magnitude ← ipowCalc (base.setWidth 32) exponent
  let buf ← digitLoopCalc (base.setWidth 32) (outSize.toNat - offset) x magnitude offset buf
  pure (0, Function.update buf outSize.toNat 0)

/-- `_itoa(x, base, buf, bufsize)`: the result and the buffer. -/
def itoaBaseCalc (x : Dword) (base : Byte) (buf : Buffer) (bufsize : Word) :
    Calc 32 (Dword × Buffer) := do
  let magnitude ← absCalc x
  let magnitude ← Calc.toUnsigned magnitude
  let log ← ilogCalc (base.setWidth 32) magnitude
  let ndigit ← Calc.addU 1 log
  let pfx := getPrefix base
  let outSize ← Calc.addU ndigit (BitVec.ofNat 32 pfx.length)
  let outSize ← outSizeCalc x outSize
  if bufsize.setWidth 32 ≤ outSize then
    pure (outSize, buf)
  else
    storeCalc x base buf ndigit outSize

/-! ### The steps change nothing -/

@[simp] theorem result_ipowRoundCalc (base exponent result : Dword) :
    (ipowRoundCalc base exponent result).result =
      some (if exponent &&& 1 ≠ 0 then result * base else result) := by
  unfold ipowRoundCalc
  split_ifs <;> rfl

/-- The calculation of the loop of `ipow` computes that loop. -/
@[simp] theorem result_ipowLoopCalc (n : ℕ) (base exponent result : Dword) :
    (ipowLoopCalc n base exponent result).result = ipowLoop n base exponent result := by
  induction n generalizing base exponent result with
  | zero => rfl
  | succ n ih =>
    unfold ipowLoopCalc ipowLoop
    rw [Calc.result_bind, result_ipowRoundCalc, Option.bind_some, Calc.result_ite]
    simp only [Calc.mulU, Calc.result_bind, Calc.result_perform, Calc.result_pure, Option.bind_some,
      ih]

/-- The calculation of `ipow` computes `ipow`. -/
@[simp] theorem result_ipowCalc (base exponent : Dword) :
    (ipowCalc base exponent).result = ipow base exponent := result_ipowLoopCalc ..

/-- The calculation of the loop of `ilog` computes that loop. -/
@[simp] theorem result_ilogLoopCalc (n : ℕ) (base x result : Dword) :
    (ilogLoopCalc n base x result).result = ilogLoop n base x result := by
  induction n generalizing x result with
  | zero => rfl
  | succ n ih =>
    unfold ilogLoopCalc ilogLoop
    split_ifs
    · simp [Calc.divU, Calc.addU, ih]
    · rfl

/-- The calculation of `ilog` computes `ilog`. -/
@[simp] theorem result_ilogCalc (base x : Dword) : (ilogCalc base x).result = ilog base x :=
  result_ilogLoopCalc ..

/-- The calculation of `abs` computes `abs`. -/
@[simp] theorem result_absCalc (x : Dword) : (absCalc x).result = some (abs x) := by
  unfold absCalc abs
  split_ifs <;> rfl

/-- The calculation of the prefix loop computes its buffer. -/
@[simp] theorem result_prefixCalc (offset : ℕ) (cs : List Byte) (i : Byte) (buf : Buffer) :
    (prefixCalc offset cs i buf).result = some (putBytes offset cs buf) := by
  induction cs generalizing offset i buf with
  | nil => rfl
  | cons c cs ih =>
    unfold prefixCalc
    simp [Calc.addU, Calc.add, Calc.narrowU, ih, putBytes]

/-- The calculation of a digit's character computes it. -/
@[simp] theorem result_digitCodeCalc (digit : Dword) :
    (digitCodeCalc digit).result = some (digitCode digit) := by
  unfold digitCodeCalc digitCode digitOffsetCalc
  split_ifs <;> rfl

/-- The calculation of the digit loop computes its buffer. -/
@[simp] theorem result_digitLoopCalc (base : Dword) (n : ℕ) (x magnitude : Dword) (offset : ℕ)
    (buf : Buffer) :
    (digitLoopCalc base n x magnitude offset buf).result =
      some (digitLoop base n x magnitude offset buf) := by
  induction n generalizing x magnitude offset buf with
  | zero => rfl
  | succ n ih =>
    unfold digitLoopCalc digitLoop
    simp [Calc.toUnsigned, Calc.toSigned, Calc.divU, Calc.modU, Calc.addU, Calc.digit, ih]

@[simp] theorem result_signCalc (x : Dword) :
    (signCalc x).result = some (if x.slt 0 then -x else x) := by
  unfold signCalc
  split_ifs <;> rfl

@[simp] theorem result_outSizeCalc (x outSize : Dword) :
    (outSizeCalc x outSize).result = some (if x.slt 0 then outSize + 1 else outSize) := by
  unfold outSizeCalc
  split_ifs <;> rfl

/-- **The steps change nothing.** -/
theorem result_itoaBaseCalc (x : Dword) (base : Byte) (buf : Buffer) (bufsize : Word) :
    (itoaBaseCalc x base buf bufsize).result = itoaBase x base buf bufsize := by
  unfold itoaBaseCalc itoaBase storeCalc
  simp [Calc.toUnsigned, Calc.addU, Calc.subU]

/-! ### Powers and logarithms -/

/-- One round of `ipow`, as a number. -/
theorem toNat_ipowRound {base result e : Dword}
    (h : result.toNat * base.toNat ^ (e.toNat % 2) < 2 ^ 32) :
    (if e &&& 1 ≠ 0 then result * base else result).toNat =
      result.toNat * base.toNat ^ (e.toNat % 2) := by
  have hround := ipowRound_eq base.toNat result.toNat e
  simp only [BitVec.ofNat_toNat, BitVec.setWidth_eq] at hround
  rw [hround, BitVec.toNat_ofNat, Nat.mod_eq_of_lt h]

/-- **`ipow` without overflow.**  Where the power fits, so does every square: the last
one is a factor of the power. -/
theorem exact_ipowLoopCalc (n : ℕ) {base e result : Dword} (hb : 1 ≤ base.toNat)
    (hr : 1 ≤ result.toNat) (h : result.toNat * base.toNat ^ e.toNat < 2 ^ 32) :
    (ipowLoopCalc n base e result).Exact := by
  induction n generalizing base e result with
  | zero => exact Calc.exact_fail
  | succ n ih =>
    have hhalf := toNat_shiftRight_one e
    have hlast : base.toNat ^ (e.toNat % 2) ≤ base.toNat ^ e.toNat :=
      Nat.pow_le_pow_right hb (Nat.mod_le ..)
    have hfit : result.toNat * base.toNat ^ (e.toNat % 2) < 2 ^ 32 :=
      (Nat.mul_le_mul_left _ hlast).trans_lt h
    have hround := toNat_ipowRound hfit
    have hpos : 1 ≤ result.toNat * base.toNat ^ (e.toNat % 2) :=
      Nat.mul_pos hr (Nat.pow_pos hb)
    unfold ipowLoopCalc
    refine Calc.Exact.bind ?_ (result_ipowRoundCalc ..) ?_
    · unfold ipowRoundCalc
      split_ifs with hodd
      · rw [(and_one_ne_zero e).1 hodd, pow_one] at hfit
        exact Calc.exact_perform_iff.2 hfit
      · exact Calc.exact_pure _
    · generalize (if e &&& 1 ≠ 0 then result * base else result) = result' at hround ⊢
      split_ifs with hzero
      · exact Calc.exact_pure _
      · have hne : e.toNat / 2 ≠ 0 := by
          intro h0
          exact hzero (BitVec.eq_of_toNat_eq (hhalf.trans h0))
        -- there is another round, so the exponent is 2 at least
        have hsquare : base.toNat * base.toNat ≤ base.toNat ^ e.toNat := by
          rw [← sq]
          exact Nat.pow_le_pow_right hb (by omega)
        have hsquare' : base.toNat * base.toNat < 2 ^ 32 :=
          (hsquare.trans (Nat.le_mul_of_pos_left _ hr)).trans_lt h
        have hmul : (base * base).toNat = base.toNat * base.toNat :=
          BitVec.toNat_mul_of_lt hsquare'
        refine Calc.exact_perform_bind hsquare' (ih ?_ ?_ ?_)
        · rw [hmul]
          exact Nat.mul_pos hb hb
        · rw [hround]
          exact hpos
        · rwa [hround, hmul, hhalf, mul_pow_halves]

/-- Of a power that fits. -/
theorem exact_ipowCalc {base e : Dword} (hb : 1 ≤ base.toNat)
    (h : base.toNat ^ e.toNat < 2 ^ 32) : (ipowCalc base e).Exact := by
  have hone : (1 : Dword).toNat = 1 := rfl
  exact exact_ipowLoopCalc 32 hb hone.ge (by rwa [hone, Nat.one_mul])

/-- The loop of `ilog` divides by the base and counts up to the logarithm. -/
theorem exact_ilogLoopCalc (n : ℕ) {base x result : Dword} (hb : 2 ≤ base.toNat)
    (h : result.toNat + Nat.log base.toNat x.toNat < 2 ^ 32) :
    (ilogLoopCalc n base x result).Exact := by
  induction n generalizing x result with
  | zero => exact Calc.exact_fail
  | succ n ih =>
    unfold ilogLoopCalc
    split_ifs with hle
    · have hle' : base.toNat ≤ x.toNat := hle
      have hone : (1 : Dword).toNat = 1 := rfl
      have hlog := Nat.log_of_one_lt_of_le hb hle'
      have hdivisor : base.toNat ≠ 0 := by omega
      have hcount : result.toNat + (1 : Dword).toNat < 2 ^ 32 := by omega
      have hnext : (result + 1).toNat = result.toNat + 1 := BitVec.toNat_add_of_lt hcount
      refine Calc.exact_perform_bind hdivisor (Calc.exact_perform_bind hcount (ih ?_))
      rw [hnext, BitVec.toNat_udiv]
      omega
    · exact Calc.exact_pure _

/-- No step of `ilog` wraps around. -/
theorem exact_ilogCalc {base : Dword} (hb : 2 ≤ base.toNat) (x : Dword) :
    (ilogCalc base x).Exact := by
  have hzero : (0 : Dword).toNat = 0 := rfl
  refine exact_ilogLoopCalc 32 hb ?_
  rw [hzero, Nat.zero_add]
  exact (Nat.log_le_self ..).trans_lt x.isLt

/-- **`ilog` and `ipow` bracket every number**, and no product in `ipow` wraps around. -/
theorem ilog_ipow_bracket {base x : Dword} (hb : 2 ≤ base.toNat) (hx : 1 ≤ x.toNat) :
    ∃ e p, ilog base x = some e ∧ ipow base e = some p ∧
      p.toNat ≤ x.toNat ∧ x.toNat < base.toNat * p.toNat ∧
      (ipowCalc base e).result = some p ∧ (ipowCalc base e).Exact := by
  have hlog : (BitVec.ofNat 32 (Nat.log base.toNat x.toNat)).toNat =
      Nat.log base.toNat x.toNat := by
    rw [BitVec.toNat_ofNat]
    exact Nat.mod_eq_of_lt ((Nat.log_le_self ..).trans_lt x.isLt)
  have hle : base.toNat ^ Nat.log base.toNat x.toNat ≤ x.toNat :=
    Nat.pow_log_le_self _ (by omega)
  have hlt : x.toNat < base.toNat ^ (Nat.log base.toNat x.toNat + 1) :=
    Nat.lt_pow_succ_log_self hb _
  have hfit : base.toNat ^ Nat.log base.toNat x.toNat < 2 ^ 32 := hle.trans_lt x.isLt
  have hpow := ipow_eq base (BitVec.ofNat 32 (Nat.log base.toNat x.toNat))
  have htoNat : (BitVec.ofNat 32 (base.toNat ^ Nat.log base.toNat x.toNat)).toNat =
      base.toNat ^ Nat.log base.toNat x.toNat := by
    rw [BitVec.toNat_ofNat, Nat.mod_eq_of_lt hfit]
  rw [hlog] at hpow
  refine ⟨_, _, ilog_eq hb x, hpow, ?_, ?_, ?_, ?_⟩
  · rwa [htoNat]
  · rwa [htoNat, ← Nat.pow_succ']
  · rw [result_ipowCalc, hpow]
  · exact exact_ipowCalc (by omega) (by rwa [hlog])

/-- The largest number in base 2. -/
theorem ilog_ipow_bracket_largest :
    ∃ e p, ilog 2 0xffffffff = some e ∧ ipow 2 e = some p ∧
      p.toNat ≤ 0xffffffff ∧ 0xffffffff < 2 * p.toNat ∧
      (ipowCalc 2 e).result = some p ∧ (ipowCalc 2 e).Exact :=
  @ilog_ipow_bracket 2 0xffffffff (by decide) (by decide)

/-- 32 rounds are enough: with more of them the loop ends at the same place. -/
theorem ipowLoop_enough {n : ℕ} (hn : 32 ≤ n) (base exponent : Dword) :
    ipowLoop n base exponent 1 = ipow base exponent := by
  obtain ⟨k, rfl⟩ := Nat.exists_eq_add_of_le' hn
  have hlt : exponent.toNat < 2 ^ (k + 31 + 1) :=
    exponent.isLt.trans_le (Nat.pow_le_pow_right (by decide) (by omega))
  have hloop := ipowLoop_eq (k + 31) base.toNat 1 exponent hlt
  rw [BitVec.ofNat_toNat, BitVec.setWidth_eq, Nat.one_mul] at hloop
  exact hloop.trans (ipow_eq base exponent).symm

/-- **`ipow` ends, with the power modulo `2 ^ 32`.** -/
theorem ipow_toNat (base exponent : Dword) :
    ∃ p, ipow base exponent = some p ∧
      (∀ n, 32 ≤ n → ipowLoop n base exponent 1 = some p) ∧
      p.toNat = base.toNat ^ exponent.toNat % 2 ^ 32 := by
  have hpow := ipow_eq base exponent
  refine ⟨_, hpow, fun n hn => ?_, BitVec.toNat_ofNat ..⟩
  rw [ipowLoop_enough hn, hpow]

/-! ### `_itoa` -/

/-- The numbers that 32 bits hold. -/
theorem inRange_iff (z : ℤ) : InRange 32 z ↔ -2147483648 ≤ z ∧ z < 2147483648 := by
  unfold InRange
  norm_num

/-- A doubleword below `2^31` is itself as a signed number. -/
theorem toInt_of_lt {x : Dword} (h : x.toNat < 2147483648) : x.toInt = x.toNat :=
  BitVec.toInt_eq_toNat_of_lt (by omega)

/-- Below `2 ^ 31` signed and unsigned numbers are the same. -/
theorem exact_toUnsigned {x : Dword} (h : x.toNat < 2147483648) : (Step.toUnsigned x).Exact := by
  show 0 ≤ x.toInt
  rw [toInt_of_lt h]
  exact Int.natCast_nonneg _

/-- A number below `2^31` is not changed by the conversion. -/
theorem exact_toSigned {x : Dword} (h : x.toNat < 2147483648) : (Step.toSigned x).Exact := by
  show InRange 32 x.toNat
  rw [inRange_iff]
  omega

/-- A digit of the base fits into a signed number. -/
theorem exact_digit {d base : Dword} (h : d.toNat < 2147483648) (hd : d.toNat < base.toNat) :
    (Step.digit d base).Exact := by
  show 0 ≤ d.toInt ∧ d.toInt < base.toNat
  rw [toInt_of_lt h]
  omega

/-- **`abs` overflows at `INT32_MIN` only.** -/
theorem exact_absCalc_iff (x : Dword) : (absCalc x).Exact ↔ x.toInt ≠ -2147483648 := by
  have hsle : (0 : Dword).sle x = true ↔ 0 ≤ x.toInt := BitVec.sle_iff_toInt_le
  have hle := BitVec.le_toInt x
  have hlt := BitVec.toInt_lt (x := x)
  unfold absCalc
  split_ifs with h
  · have hpos := hsle.1 h
    exact iff_of_true (Calc.exact_pure x) (by omega)
  · have hneg := mt hsle.2 h
    show (Calc.perform (.neg x) (-x)).Exact ↔ _
    rw [Calc.exact_perform_iff, Step.Exact, inRange_iff]
    omega

/-- Taking the sign off overflows for the least integer only. -/
theorem exact_signCalc {x : Dword} (h : x.toInt ≠ -2147483648) : (signCalc x).Exact := by
  have hle := BitVec.le_toInt x
  unfold signCalc
  split_ifs with hneg
  · have hneg' := (slt_zero_iff x).1 hneg
    refine Calc.exact_perform_bind (show 0 + 1 < 2 ^ 32 by decide)
      (Calc.exact_perform_iff.2 ((inRange_iff _).2 ?_))
    omega
  · exact Calc.exact_pure x

/-- Counting the sign does not overflow. -/
theorem exact_outSizeCalc {x outSize : Dword} (h : outSize.toNat < 2 ^ 31) :
    (outSizeCalc x outSize).Exact := by
  have hone : (1 : Dword).toNat = 1 := rfl
  unfold outSizeCalc
  split_ifs
  · refine Calc.exact_perform_iff.2 ?_
    show outSize.toNat + (1 : Dword).toNat < 2 ^ 32
    omega
  · exact Calc.exact_pure outSize

/-- The offset of a character is far from `2 ^ 32`. -/
theorem exact_offset {offset : ℕ} (h : offset < 2 ^ 31) :
    (Step.addU (BitVec.ofNat 32 offset) 1).Exact := by
  have hone : (1 : Dword).toNat = 1 := rfl
  show (BitVec.ofNat 32 offset).toNat + (1 : Dword).toNat < 2 ^ 32
  rw [BitVec.toNat_ofNat, hone]
  omega

/-- The indices of the prefix loop do not wrap around. -/
theorem exact_prefixCalc {offset : ℕ} {cs : List Byte} {i : Byte}
    (hoffset : offset + cs.length ≤ 2 ^ 31) (hi : i.toNat + cs.length < 256) (buf : Buffer) :
    (prefixCalc offset cs i buf).Exact := by
  induction cs generalizing offset i buf with
  | nil => exact Calc.exact_pure buf
  | cons c cs ih =>
    rw [List.length_cons] at hoffset hi
    have hone : (1 : Dword).toNat = 1 := rfl
    have hwide : (i.setWidth 32).toNat = i.toNat := by
      rw [BitVec.toNat_setWidth]
      omega
    have hnext : (i.setWidth 32 + 1 : Dword).toNat = i.toNat + 1 := by
      rw [BitVec.toNat_add, hwide, hone]
      omega
    have hnarrow : ((i.setWidth 32 + 1 : Dword).setWidth 8).toNat = i.toNat + 1 := by
      rw [BitVec.toNat_setWidth, hnext]
      omega
    have hadd : (Step.add (i.setWidth 32) 1).Exact := by
      show InRange 32 ((i.setWidth 32).toInt + 1)
      rw [inRange_iff, toInt_of_lt (by omega), hwide]
      omega
    have hsmall : (Step.narrowU 8 (i.setWidth 32 + 1)).Exact := by
      show 0 ≤ BitVec.toInt _ ∧ BitVec.toInt _ < 2 ^ 8
      rw [toInt_of_lt (by omega), hnext]
      omega
    unfold prefixCalc
    refine Calc.exact_perform_bind (exact_offset (by omega)) ?_
    refine Calc.exact_perform_bind hadd ?_
    refine Calc.exact_perform_bind hsmall (ih (by omega) ?_ _)
    omega

/-- Adding `'0'` or `'a' - 10` to a digit does not overflow. -/
theorem exact_digitCodeCalc {d : Dword} (h : d.toNat < 36) : (digitCodeCalc d).Exact := by
  have hall : ∀ k < 36, (digitCodeCalc (BitVec.ofNat 32 k)).Exact := by decide
  have hd := hall d.toNat h
  rwa [BitVec.ofNat_toNat, BitVec.setWidth_eq] at hd

/-- **The loop over the digits** keeps the remaining number below the power of the next
digit, so that every quotient is a digit. -/
theorem exact_digitLoopCalc {base : Dword} {b : ℕ} (hbase : base.toNat = b) (hb : 2 ≤ b)
    (hb' : b ≤ 36) (n : ℕ) {x magnitude : Dword} (hsigned : x.toNat < 2147483648)
    (hx : x.toNat < b ^ n) (hmag : ∀ k, n = k + 1 → magnitude.toNat = b ^ k) {offset : ℕ}
    (hoffset : offset + n ≤ 2 ^ 31) (buf : Buffer) :
    (digitLoopCalc base n x magnitude offset buf).Exact := by
  induction n generalizing x magnitude offset buf with
  | zero => exact Calc.exact_pure buf
  | succ n ih =>
    have hpow := hmag n rfl
    have hround := digitRound hbase hb hx hpow
    have hdigit := hround.digit
    have hless : (x % magnitude).toNat ≤ x.toNat := by
      rw [BitVec.toNat_umod]
      exact Nat.mod_le ..
    have hmagnitude : magnitude.toNat ≠ 0 := by
      rw [hpow]
      exact (Nat.pow_pos (by omega)).ne'
    have hdivisor : base.toNat ≠ 0 := by omega
    have hunsigned := exact_toUnsigned hsigned
    have hquotient : (Step.toSigned (x / magnitude)).Exact := exact_toSigned (by omega)
    have hremainder : (Step.toSigned (x % magnitude)).Exact := exact_toSigned (by omega)
    have hbelow : (Step.digit (x / magnitude) base).Exact := exact_digit (by omega) (by omega)
    unfold digitLoopCalc
    refine Calc.exact_perform_bind hunsigned (Calc.exact_perform_bind hmagnitude ?_)
    refine Calc.exact_perform_bind hquotient (Calc.exact_perform_bind hbelow ?_)
    refine (exact_digitCodeCalc (by omega)).bind (result_digitCodeCalc _) ?_
    refine Calc.exact_perform_bind hunsigned (Calc.exact_perform_bind hmagnitude ?_)
    refine Calc.exact_perform_bind hremainder (Calc.exact_perform_bind hdivisor ?_)
    refine Calc.exact_perform_bind (exact_offset (by omega)) ?_
    exact ih (by omega) hround.rest hround.next (by omega) _

theorem toNat_setWidth_base (base : Byte) : (base.setWidth 32).toNat = base.toNat := by
  rw [BitVec.toNat_setWidth]
  omega

/-- But for the least integer, the absolute value is below `2^31`. -/
theorem toNat_abs_lt {x : Dword} (hx : x.toInt ≠ -2147483648) : (abs x).toNat < 2147483648 := by
  have hle := BitVec.le_toInt x
  have hlt := BitVec.toInt_lt (x := x)
  rw [toNat_abs]
  omega

/-- Sign, prefix and digits of a number that is not `INT32_MIN`. -/
theorem exact_storeCalc {x : Dword} {base : Byte} (hb : 2 ≤ base.toNat) (hb' : base.toNat ≤ 36)
    (hx : x.toInt ≠ -2147483648) (buf : Buffer) {outSize : Dword}
    (hsize : outSize.toNat = (numeral base x).length) :
    (storeCalc x base buf (1 + BitVec.ofNat 32 (Nat.log base.toNat x.toInt.natAbs))
      outSize).Exact := by
  have hbase := toNat_setWidth_base base
  have hlog := log_natAbs_lt hb x
  have hndigit := toNat_ndigit hb x
  have hpfx := length_getPrefix base
  have hsign := sign_eq x
  have hrest := toNat_unsigned x
  have hone : (1 : Dword).toNat = 1 := rfl
  have hzero : (0 : Byte).toNat = 0 := rfl
  have hexponent : (Step.subU
      (1 + BitVec.ofNat 32 (Nat.log base.toNat x.toInt.natAbs) : Dword) 1).Exact := by
    show (1 : Dword).toNat ≤ BitVec.toNat _
    omega
  unfold storeCalc
  dsimp only
  refine (exact_signCalc hx).bind (result_signCalc x) ?_
  generalize (if x.slt 0 then [0x2d] else [] : List Byte) = sign at hsign ⊢
  generalize (if x.slt 0 then -x else x) = y at hrest ⊢
  have hdigits := length_numeral_sub hb x hsign
  have hlead : sign.length ≤ 1 := by
    rw [hsign]
    split_ifs <;> simp
  refine (exact_prefixCalc (by omega) (by omega) _).bind (result_prefixCalc ..) ?_
  refine Calc.exact_perform_bind hexponent ?_
  refine (exact_ipowCalc (by omega) ?_).bind ((result_ipowCalc ..).trans (ipow_eq ..)) ?_
  · rw [hbase, toNat_exponent hb]
    exact pow_log_natAbs_lt _ x
  refine Calc.Exact.bind ?_ (result_digitLoopCalc ..) (Calc.exact_pure _)
  rw [hsize, hdigits, hbase, toNat_exponent hb]
  refine exact_digitLoopCalc hbase hb hb' _ ?_ ?_ ?_ (by omega) _
  · rw [hrest, ← toNat_abs]
    exact toNat_abs_lt hx
  · rw [hrest]
    exact Nat.lt_pow_succ_log_self (by omega) _
  · intro k hk
    rw [toNat_magnitude, Nat.succ.inj hk]

/-- Without `INT32_MIN` every step is exact. -/
theorem exact_itoaBaseCalc {x : Dword} {base : Byte} (hb : 2 ≤ base.toNat)
    (hb' : base.toNat ≤ 36) (hx : x.toInt ≠ -2147483648) (buf : Buffer) (bufsize : Word) :
    (itoaBaseCalc x base buf bufsize).Exact := by
  have hbase := toNat_setWidth_base base
  have hlog := log_natAbs_lt hb x
  have hpfx := length_getPrefix base
  have hsize := toNat_outSize x hb
  have hone : (1 : Dword).toNat = 1 := rfl
  have hilog : (ilogCalc (base.setWidth 32) (abs x)).result =
      some (BitVec.ofNat 32 (Nat.log base.toNat x.toInt.natAbs)) := by
    rw [result_ilogCalc, ilog_eq (by omega), hbase, toNat_abs]
  have hcount : (Step.addU 1 (BitVec.ofNat 32 (Nat.log base.toNat x.toInt.natAbs))).Exact := by
    show (1 : Dword).toNat + (BitVec.ofNat 32 _).toNat < 2 ^ 32
    rw [hone, BitVec.toNat_ofNat]
    omega
  have hsum : (1 + BitVec.ofNat 32 (Nat.log base.toNat x.toInt.natAbs) : Dword).toNat +
      (BitVec.ofNat 32 (getPrefix base).length).toNat < 2 ^ 31 := by
    rw [toNat_ndigit hb, BitVec.toNat_ofNat]
    omega
  dsimp only at hsize
  unfold itoaBaseCalc
  refine ((exact_absCalc_iff x).2 hx).bind (result_absCalc x) ?_
  refine Calc.exact_perform_bind (exact_toUnsigned (toNat_abs_lt hx)) ?_
  refine (exact_ilogCalc (by omega) _).bind hilog ?_
  refine Calc.exact_perform_bind hcount (Calc.exact_perform_bind ?_ ?_)
  · exact hsum.trans (by decide)
  refine (exact_outSizeCalc ?_).bind (result_outSizeCalc ..) ?_
  · exact (Nat.mod_le ..).trans_lt hsum
  generalize (if x.slt 0 then _ else _ : Dword) = outSize at hsize ⊢
  split_ifs
  · exact Calc.exact_pure _
  · exact exact_storeCalc hb hb' hx buf hsize

/-- **The arithmetic of `_itoa` is exact for every number but one**: `-INT32_MIN` is
not a number of 32 bits, and both `abs` and `_itoa` compute it.  The steps followed
are those of a calculation that always ends, with the result of `itoaBase`. -/
theorem itoaBase_exact_iff (x : Dword) {base : Byte} (hb : 2 ≤ base.toNat)
    (hb' : base.toNat ≤ 36) (buf : Buffer) (bufsize : Word) :
    (∃ out, itoaBase x base buf bufsize = some out ∧
      (itoaBaseCalc x base buf bufsize).result = some out) ∧
    ((itoaBaseCalc x base buf bufsize).Exact ↔ x.toInt ≠ -2 ^ 31) := by
  constructor
  · have hout := itoaBase_eq x hb hb' buf bufsize
    exact ⟨_, hout, (result_itoaBaseCalc ..).trans hout⟩
  · constructor
    · intro h
      exact (exact_absCalc_iff x).1 (Calc.exact_bind_iff.1 h).1
    · intro h
      exact exact_itoaBaseCalc hb hb' h buf bufsize

/-- In base 16, with the buffer of `_cprint`. -/
theorem itoaBase_exact_iff_hex :
    (itoaBaseCalc (-255) 16 (fun _ => 0) 32).Exact ↔ (-255 : Dword).toInt ≠ -2 ^ 31 :=
  (@itoaBase_exact_iff (-255) 16 (by decide) (by decide) (fun _ => 0) 32).2

/-- `INT32_MIN` in base 10: `abs` negates it, and the result is no `int32_t`. -/
theorem not_exact_itoaBaseCalc_least :
    .neg 0x80000000 ∈ (itoaBaseCalc 0x80000000 10 (fun _ => 0) 32).steps ∧
      ¬ InRange 32 (-(0x80000000 : Dword).toInt) ∧
      ¬ (itoaBaseCalc 0x80000000 10 (fun _ => 0) 32).Exact := by
  have habs : .neg 0x80000000 ∈ (absCalc 0x80000000).steps := List.mem_cons_self ..
  have hmem : .neg 0x80000000 ∈ (itoaBaseCalc 0x80000000 10 (fun _ => 0) 32).steps :=
    Calc.mem_steps_bind habs _
  have hout : ¬ InRange 32 (-(0x80000000 : Dword).toInt) := by decide
  exact ⟨hmem, hout, fun h => hout (h _ hmem)⟩

end DrewOS
