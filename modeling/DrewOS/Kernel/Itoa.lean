/-
# Formatting integers

`src/kernel/dmath.c`, without its logarithm of a `double`, and `_itoa`, `itoa` and
`itoh` of `src/kernel/util.c`.  The loops of `ipow` and `ilog` get as many rounds
as they can need in 32 bits; one that goes on is `none`.

The buffer is a function from offsets to bytes.  `itoaBase_eq` is what `_itoa`
does with it: nothing when the numeral does not fit, and otherwise the numeral
and a `NUL`.
-/

import DrewOS.Memory.Words
import DrewOS.Number.Numeral

namespace DrewOS

open ByteMem

/-! ### `dmath.c` -/

/-- The loop of `ipow`, at most `n` rounds. -/
def ipowLoop : ℕ → Dword → Dword → Dword → Option Dword
  | 0, _, _, _ => none
  | n + 1, base, exponent, result =>
    let result := if exponent &&& 1 ≠ 0 then result * base else result
    if exponent >>> 1 = 0 then some result
    else ipowLoop n (base * base) (exponent >>> 1) result

/-- `ipow(base, exponent)`. -/
def ipow (base exponent : Dword) : Option Dword := ipowLoop 32 base exponent 1

/-- `for (result = 0; x >= base; result++) x /= base;`, at most `n` rounds. -/
def ilogLoop : ℕ → Dword → Dword → Dword → Option Dword
  | 0, _, _, _ => none
  | n + 1, base, x, result =>
    if base ≤ x then ilogLoop n base (x / base) (result + 1) else some result

/-- `ilog(base, x)`. -/
def ilog (base x : Dword) : Option Dword := ilogLoop 32 base x 0

/-- `abs(x)`; `-INT32_MIN` wraps around. -/
def abs (x : Dword) : Dword := if (0 : Dword).sle x then x else -x

/-! ### `_itoa` -/

/-- The bytes from a pointer on. -/
abbrev Buffer : Type := ℕ → Byte

/-- `get_prefix(base, &pfx)`: the prefix, whose length is the result. -/
def getPrefix (base : Byte) : List Byte :=
  if base = 2 then [0x30, 0x62]
  else if base = 8 then [0x30, 0x61]
  else if base = 16 then [0x30, 0x78]
  else []

/-- Store the bytes one after the other from `offset` on. -/
def putBytes : ℕ → List Byte → Buffer → Buffer
  | _, [], buf => buf
  | offset, c :: cs, buf => putBytes (offset + 1) cs (Function.update buf offset c)

/-- `(char)(digit + digit_offset)`. -/
def digitCode (digit : Dword) : Byte :=
  (digit + if digit.slt 10 then 0x30 else 0x61 - 10).setWidth 8

/-- The loop over the digits, with `n` of them left. -/
def digitLoop (base : Dword) : ℕ → Dword → Dword → ℕ → Buffer → Buffer
  | 0, _, _, _, buf => buf
  | n + 1, x, magnitude, offset, buf =>
    digitLoop base n (x % magnitude) (magnitude / base) (offset + 1)
      (Function.update buf offset (digitCode (x / magnitude)))

/-- `_itoa(x, base, buf, bufsize)`: the result and the buffer. -/
def itoaBase (x : Dword) (base : Byte) (buf : Buffer) (bufsize : Word) :
    Option (Dword × Buffer) := do
  let ndigit := 1 + (← ilog (base.setWidth 32) (abs x))
  let pfx := getPrefix base
  let outSize := ndigit + BitVec.ofNat 32 pfx.length
  let outSize := if x.slt 0 then outSize + 1 else outSize
  if bufsize.setWidth 32 ≤ outSize then
    return (outSize, buf)
  else
    let sign := if x.slt 0 then [0x2d] else []
    let buf := putBytes 0 sign buf
    let x := if x.slt 0 then -x else x
    let buf := putBytes sign.length pfx buf
    let offset := sign.length + pfx.length
    let magnitude ← ipow (base.setWidth 32) (ndigit - 1)
    let buf := digitLoop (base.setWidth 32) (outSize.toNat - offset) x magnitude offset buf
    return (0, Function.update buf outSize.toNat 0)

/-- `itoa(x, buf, bufsize)`. -/
def itoa (x : Dword) (buf : Buffer) (bufsize : Word) : Option (Dword × Buffer) :=
  itoaBase x 10 buf bufsize

/-- `itoh(x, buf, bufsize)`. -/
def itoh (x : Dword) (buf : Buffer) (bufsize : Word) : Option (Dword × Buffer) :=
  itoaBase x 16 buf bufsize

/-! ### Powers and logarithms -/

/-- The lowest bit of an exponent says whether it is odd. -/
theorem and_one_ne_zero (e : Dword) : e &&& 1 ≠ 0 ↔ e.toNat % 2 = 1 := by
  have hone : (e &&& 1).toNat = e.toNat % 2 := by
    rw [BitVec.toNat_and]
    exact Nat.and_one_is_mod _
  constructor
  · intro h
    have hne : (e &&& 1).toNat ≠ 0 := fun h0 => h (BitVec.eq_of_toNat_eq h0)
    omega
  · intro h h0
    rw [h0] at hone
    exact absurd (hone.trans h) (by decide)

/-- Shifting an exponent halves it. -/
theorem toNat_shiftRight_one (e : Dword) : (e >>> 1).toNat = e.toNat / 2 := by
  rw [BitVec.toNat_ushiftRight, Nat.shiftRight_eq_div_pow, pow_one]

/-- One round: the last bit of the exponent. -/
theorem ipowRound_eq (B R : ℕ) (e : Dword) :
    (if e &&& 1 ≠ 0 then BitVec.ofNat 32 R * BitVec.ofNat 32 B else BitVec.ofNat 32 R) =
      BitVec.ofNat 32 (R * B ^ (e.toNat % 2)) := by
  by_cases h : e &&& 1 ≠ 0
  · rw [if_pos h, (and_one_ne_zero e).1 h, pow_one, BitVec.ofNat_mul]
  · have heven : e.toNat % 2 = 0 := by
      have hodd := mt (and_one_ne_zero e).2 h
      omega
    rw [if_neg h, heven, pow_zero, Nat.mul_one]

/-- The power, from the last bit of the exponent and the rest of it. -/
theorem mul_pow_halves (R B e : ℕ) : R * B ^ (e % 2) * (B * B) ^ (e / 2) = R * B ^ e := by
  have hsplit : e = 2 * (e / 2) + e % 2 := (Nat.div_add_mod ..).symm
  conv_rhs => rw [hsplit]
  rw [← sq, ← pow_mul, Nat.pow_add]
  ring

/-- The loop of `ipow` multiplies by the power, modulo `2 ^ 32`. -/
theorem ipowLoop_eq (n B R : ℕ) (e : Dword) (he : e.toNat < 2 ^ (n + 1)) :
    ipowLoop (n + 1) (BitVec.ofNat 32 B) e (BitVec.ofNat 32 R) =
      some (BitVec.ofNat 32 (R * B ^ e.toNat)) := by
  induction n generalizing B R e with
  | zero =>
    have hlast : e >>> 1 = 0 := by
      refine BitVec.eq_of_toNat_eq ?_
      rw [toNat_shiftRight_one]
      exact Nat.div_eq_of_lt he
    have hmod : e.toNat % 2 = e.toNat := Nat.mod_eq_of_lt he
    rw [ipowLoop, ipowRound_eq]
    rw [if_pos hlast, hmod]
  | succ n ih =>
    have hsplit : e.toNat = 2 * (e.toNat / 2) + e.toNat % 2 := (Nat.div_add_mod ..).symm
    have hhalf := toNat_shiftRight_one e
    rw [ipowLoop, ipowRound_eq]
    by_cases hlast : e >>> 1 = 0
    · have hzero : e.toNat / 2 = 0 := by
        rw [← hhalf, hlast]
        rfl
      rw [if_pos hlast, hsplit, hzero]
      rw [Nat.mul_zero, Nat.zero_add, Nat.mod_mod]
    · have hsquare : BitVec.ofNat 32 B * BitVec.ofNat 32 B = BitVec.ofNat 32 (B * B) :=
        (BitVec.ofNat_mul ..).symm
      rw [if_neg hlast, hsquare, ih _ _ _ (by omega), hhalf, mul_pow_halves]

/-- **`ipow`**, modulo `2 ^ 32`. -/
theorem ipow_eq (base exponent : Dword) :
    ipow base exponent = some (BitVec.ofNat 32 (base.toNat ^ exponent.toNat)) := by
  have h := ipowLoop_eq 31 base.toNat 1 exponent exponent.isLt
  rwa [BitVec.ofNat_toNat, BitVec.setWidth_eq, Nat.one_mul] at h

/-- The loop of `ilog` divides until nothing is left: it adds the logarithm. -/
theorem ilogLoop_eq {base : Dword} (hb : 2 ≤ base.toNat) (n : ℕ) (x result : Dword)
    (hx : x.toNat < 2 ^ (n + 1)) :
    ilogLoop (n + 1) base x result =
      some (result + BitVec.ofNat 32 (Nat.log base.toNat x.toNat)) := by
  induction n generalizing x result with
  | zero =>
    have hlt : ¬ base ≤ x := by
      rw [BitVec.le_def]
      omega
    rw [ilogLoop, if_neg hlt, Nat.log_of_lt (by omega)]
    exact congrArg some (BitVec.add_zero result).symm
  | succ n ih =>
    rw [ilogLoop]
    by_cases hle : base ≤ x
    · have hle' : base.toNat ≤ x.toNat := hle
      have hdiv : (x / base).toNat = x.toNat / base.toNat := BitVec.toNat_udiv ..
      have hhalf : x.toNat / base.toNat ≤ x.toNat / 2 := Nat.div_le_div_left hb (by decide)
      rw [if_pos hle, ih (x / base) (result + 1) (by omega), hdiv,
        Nat.log_of_one_lt_of_le hb hle', Nat.add_comm _ 1, ← add_ofNat_add result 1]
      rfl
    · have hlt : x.toNat < base.toNat := Nat.lt_of_not_le hle
      rw [if_neg hle, Nat.log_of_lt hlt]
      exact congrArg some (BitVec.add_zero result).symm

/-- **`ilog`** of a base from 2 on. -/
theorem ilog_eq {base : Dword} (hb : 2 ≤ base.toNat) (x : Dword) :
    ilog base x = some (BitVec.ofNat 32 (Nat.log base.toNat x.toNat)) := by
  rw [ilog, ilogLoop_eq hb 31 x 0 x.isLt]
  exact congrArg some (BitVec.zero_add _)

theorem slt_zero_iff (x : Dword) : x.slt 0 = true ↔ x.toInt < 0 := by
  rw [BitVec.slt_iff_toInt_lt]
  rfl

/-- The negation of a negative number, with `2 ^ 31` for `INT32_MIN`. -/
theorem toNat_neg_of_neg {x : Dword} (h : x.toInt < 0) : (-x).toNat = x.toInt.natAbs := by
  have hcond := BitVec.toInt_eq_toNat_cond x
  have hlt := x.isLt
  rw [BitVec.toNat_neg]
  split_ifs at hcond with hsmall
  · omega
  · omega

/-- A nonnegative number is its absolute value. -/
theorem toNat_of_nonneg {x : Dword} (h : 0 ≤ x.toInt) : x.toNat = x.toInt.natAbs := by
  have hcond := BitVec.toInt_eq_toNat_cond x
  have hlt := x.isLt
  split_ifs at hcond with hsmall
  · omega
  · omega

/-- **`abs`** as an unsigned number. -/
theorem toNat_abs (x : Dword) : (abs x).toNat = x.toInt.natAbs := by
  have hsle : (0 : Dword).sle x = true ↔ 0 ≤ x.toInt := BitVec.sle_iff_toInt_le
  unfold abs
  split_ifs with h
  · exact toNat_of_nonneg (hsle.1 h)
  · exact toNat_neg_of_neg (Int.lt_of_not_ge (mt hsle.2 h))

/-- No absolute value is above `2^31`. -/
theorem natAbs_toInt_le (x : Dword) : x.toInt.natAbs ≤ 2 ^ 31 := by
  have hle := BitVec.le_toInt x
  have hlt := BitVec.toInt_lt (x := x)
  omega

/-! ### Numerals -/

/-- The character of a digit. -/
def digitChar (d : ℕ) : Byte :=
  if d < 10 then BitVec.ofNat 8 (0x30 + d) else BitVec.ofNat 8 (0x57 + d)

/-- The text of a number: sign, prefix and digits. -/
def numeral (base : Byte) (x : Dword) : List Byte :=
  (if x.toInt < 0 then [0x2d] else []) ++ getPrefix base ++
    (Numeral.digits base.toNat x.toInt.natAbs).map digitChar

/-- A text can be stored in two parts. -/
theorem putBytes_append (offset : ℕ) (cs ds : List Byte) (buf : Buffer) :
    putBytes offset (cs ++ ds) buf = putBytes (offset + cs.length) ds (putBytes offset cs buf) := by
  induction cs generalizing offset buf with
  | nil => rfl
  | cons c cs ih =>
    rw [List.cons_append, putBytes, ih, putBytes, List.length_cons]
    congr 1
    omega

/-- What is in the buffer afterwards. -/
theorem putBytes_apply (offset : ℕ) (cs : List Byte) (buf : Buffer) (i : ℕ) :
    putBytes offset cs buf i = if offset ≤ i then cs[i - offset]?.getD (buf i) else buf i := by
  induction cs generalizing offset buf with
  | nil =>
    rw [putBytes, List.getElem?_nil, Option.getD_none, ite_self]
  | cons c cs ih =>
    rw [putBytes, ih]
    rcases Nat.lt_trichotomy i offset with hlt | rfl | hgt
    · have hne : i ≠ offset := by omega
      rw [if_neg (by omega), if_neg (by omega), Function.update_of_ne hne]
    · rw [if_neg (by omega), if_pos le_rfl, Function.update_self, Nat.sub_self]
      rfl
    · have hne : i ≠ offset := by omega
      have hnext : i - offset = i - (offset + 1) + 1 := by omega
      rw [if_pos (by omega), if_pos (by omega), Function.update_of_ne hne, hnext,
        List.getElem?_cons_succ]

/-- `_itoa` writes the digits of a base up to 36 as `digitChar` has them. -/
theorem digitCode_eq {d : Dword} (h : d.toNat < 36) : digitCode d = digitChar d.toNat := by
  have hall : ∀ k < 36, digitCode (BitVec.ofNat 32 k) = digitChar k := by decide
  have hd := hall d.toNat h
  rwa [BitVec.ofNat_toNat, BitVec.setWidth_eq] at hd

/-- One round of the loop over the digits: the quotient is a digit, and what remains is
below the power of the next one. -/
structure DigitRound (base : Dword) (b n : ℕ) (x magnitude : Dword) : Prop where
  quotient : (x / magnitude).toNat = x.toNat / b ^ n
  digit : (x / magnitude).toNat < b
  remainder : (x % magnitude).toNat = x.toNat % b ^ n
  rest : (x % magnitude).toNat < b ^ n
  next : ∀ k, n = k + 1 → (magnitude / base).toNat = b ^ k

/-- One round of the digit loop stores the highest digit and takes it off. -/
theorem digitRound {base : Dword} {b : ℕ} (hbase : base.toNat = b) (hb : 2 ≤ b) {n : ℕ}
    {x magnitude : Dword} (hx : x.toNat < b ^ (n + 1)) (hpow : magnitude.toNat = b ^ n) :
    DigitRound base b n x magnitude := by
  have hdiv : (x / magnitude).toNat = x.toNat / b ^ n := by rw [BitVec.toNat_udiv, hpow]
  have hmod : (x % magnitude).toNat = x.toNat % b ^ n := by rw [BitVec.toNat_umod, hpow]
  refine ⟨hdiv, ?_, hmod, ?_, ?_⟩
  · rw [hdiv]
    exact Nat.div_lt_of_lt_mul (by rwa [← Nat.pow_succ])
  · rw [hmod]
    exact Nat.mod_lt _ (Nat.pow_pos (by omega))
  · rintro k rfl
    rw [BitVec.toNat_udiv, hpow, hbase, Nat.pow_succ, Nat.mul_div_cancel _ (by omega)]

/-- The loop over the digits stores those from the first power on. -/
theorem digitLoop_eq {base : Dword} {b : ℕ} (hbase : base.toNat = b) (hb : 2 ≤ b) (hb' : b ≤ 36)
    (n : ℕ) {x magnitude : Dword} (hx : x.toNat < b ^ n)
    (hmag : ∀ k, n = k + 1 → magnitude.toNat = b ^ k) (offset : ℕ) (buf : Buffer) :
    digitLoop base n x magnitude offset buf =
      putBytes offset ((Numeral.leading b n x.toNat).map digitChar) buf := by
  induction n generalizing x magnitude offset buf with
  | zero => rfl
  | succ n ih =>
    have hround := digitRound hbase hb hx (hmag n rfl)
    have hdigit := hround.digit
    rw [digitLoop, ih hround.rest hround.next, digitCode_eq (by omega), hround.quotient,
      hround.remainder]
    rfl

/-- A prefix has at most two characters. -/
theorem length_getPrefix (base : Byte) : (getPrefix base).length ≤ 2 := by
  unfold getPrefix
  split_ifs <;> simp

/-- The length of a numeral. -/
theorem length_numeral (base : Byte) (hb : 2 ≤ base.toNat) (x : Dword) :
    (numeral base x).length =
      (if x.toInt < 0 then 1 else 0) + (getPrefix base).length +
        (Nat.log base.toNat x.toInt.natAbs + 1) := by
  rw [numeral, List.length_append, List.length_append, List.length_map,
    Numeral.length_digits (by omega)]
  split_ifs <;> rfl

/-- The number of digits fits. -/
theorem log_natAbs_lt {b : ℕ} (hb : 2 ≤ b) (x : Dword) : Nat.log b x.toInt.natAbs < 32 := by
  have hle : Nat.log b x.toInt.natAbs ≤ Nat.log 2 (2 ^ 31) :=
    (Nat.log_anti_left (by decide) hb).trans (Nat.log_mono_right (natAbs_toInt_le x))
  rw [Nat.log_pow (by decide)] at hle
  omega

/-- The power of the first digit fits. -/
theorem pow_log_natAbs_lt (b : ℕ) (x : Dword) :
    b ^ Nat.log b x.toInt.natAbs < 2 ^ 32 := by
  rcases Nat.eq_zero_or_pos x.toInt.natAbs with h0 | hpos
  · rw [h0, Nat.log_zero_right, pow_zero]
    decide
  · have hle := Nat.pow_log_le_self b hpos.ne'
    have hmax := natAbs_toInt_le x
    omega

/-- `ndigit`, and the exponent of the first digit. -/
theorem toNat_ndigit {b : ℕ} (hb : 2 ≤ b) (x : Dword) :
    (1 + BitVec.ofNat 32 (Nat.log b x.toInt.natAbs) : Dword).toNat =
      1 + Nat.log b x.toInt.natAbs := by
  have hlog := log_natAbs_lt hb x
  have hone : (1 : Dword).toNat = 1 := rfl
  rw [BitVec.toNat_add, BitVec.toNat_ofNat, hone]
  omega

/-- The exponent of the first round is the logarithm. -/
theorem toNat_exponent {b : ℕ} (hb : 2 ≤ b) (x : Dword) :
    (1 + BitVec.ofNat 32 (Nat.log b x.toInt.natAbs) - 1 : Dword).toNat =
      Nat.log b x.toInt.natAbs := by
  have hlog := log_natAbs_lt hb x
  have hone : (1 : Dword).toNat = 1 := rfl
  rw [BitVec.toNat_sub, toNat_ndigit hb, hone]
  omega

/-- `magnitude`, before the first digit. -/
theorem toNat_magnitude (b : ℕ) (x : Dword) :
    (BitVec.ofNat 32 (b ^ Nat.log b x.toInt.natAbs)).toNat = b ^ Nat.log b x.toInt.natAbs := by
  rw [BitVec.toNat_ofNat, Nat.mod_eq_of_lt (pow_log_natAbs_lt b x)]

/-- `x` without its sign. -/
theorem toNat_unsigned (x : Dword) : (if x.slt 0 then -x else x).toNat = x.toInt.natAbs := by
  split_ifs with hneg
  · exact toNat_neg_of_neg ((slt_zero_iff x).1 hneg)
  · exact toNat_of_nonneg (Int.le_of_not_gt (mt (slt_zero_iff x).2 hneg))

/-- The sign, if there is one. -/
theorem sign_eq (x : Dword) : (if x.slt 0 then [0x2d] else [] : List Byte) =
    if x.toInt < 0 then [0x2d] else [] := if_congr (slt_zero_iff x) rfl rfl

/-- Behind sign and prefix there is room for the digits. -/
theorem length_numeral_sub {base : Byte} (hb : 2 ≤ base.toNat) (x : Dword) {sign : List Byte}
    (hsign : sign = if x.toInt < 0 then [0x2d] else []) :
    (numeral base x).length - (sign.length + (getPrefix base).length) =
      Nat.log base.toNat x.toInt.natAbs + 1 := by
  rw [length_numeral base hb, hsign]
  split_ifs <;> simp

/-- `out_size`. -/
theorem toNat_outSize (x : Dword) {base : Byte} (hb : 2 ≤ base.toNat) :
    let ndigit := 1 + BitVec.ofNat 32 (Nat.log base.toNat x.toInt.natAbs)
    let outSize := ndigit + BitVec.ofNat 32 (getPrefix base).length
    (if x.slt 0 then outSize + 1 else outSize).toNat = (numeral base x).length := by
  have hlog := log_natAbs_lt hb x
  have hpfx := length_getPrefix base
  have hsum : (1 + BitVec.ofNat 32 (Nat.log base.toNat x.toInt.natAbs) +
      BitVec.ofNat 32 (getPrefix base).length : Dword).toNat =
      1 + Nat.log base.toNat x.toInt.natAbs + (getPrefix base).length := by
    rw [BitVec.toNat_add, toNat_ndigit hb, BitVec.toNat_ofNat]
    omega
  intro ndigit outSize
  rw [length_numeral base hb]
  by_cases hneg : x.toInt < 0
  · have hone : (1 : Dword).toNat = 1 := rfl
    rw [if_pos ((slt_zero_iff x).2 hneg), if_pos hneg, BitVec.toNat_add, hsum]
    omega
  · rw [if_neg (mt (slt_zero_iff x).1 hneg), if_neg hneg, hsum]
    omega

/-- The text is stored piece by piece. -/
theorem putBytes_numeral (base : Byte) (x : Dword) (buf : Buffer) {sign : List Byte}
    (hsign : sign = if x.toInt < 0 then [0x2d] else []) :
    putBytes 0 (numeral base x ++ [0]) buf =
      Function.update (putBytes (sign.length + (getPrefix base).length)
        ((Numeral.digits base.toNat x.toInt.natAbs).map digitChar)
        (putBytes sign.length (getPrefix base) (putBytes 0 sign buf)))
        (numeral base x).length 0 := by
  have htext : numeral base x = sign ++ getPrefix base ++
      (Numeral.digits base.toNat x.toInt.natAbs).map digitChar := by rw [numeral, hsign]
  rw [putBytes_append, Nat.zero_add, putBytes, putBytes]
  conv_lhs => rw [htext]
  rw [putBytes_append, putBytes_append, Nat.zero_add, Nat.zero_add, List.length_append, htext]

/-- **What `_itoa` does.**  If the numeral and its `NUL` do not fit, it returns the
length and leaves the buffer alone; otherwise it stores them and returns 0. -/
theorem itoaBase_eq (x : Dword) {base : Byte} (hb : 2 ≤ base.toNat) (hb' : base.toNat ≤ 36)
    (buf : Buffer) (bufsize : Word) :
    itoaBase x base buf bufsize =
      some (if bufsize.toNat ≤ (numeral base x).length then
        (BitVec.ofNat 32 (numeral base x).length, buf)
      else (0, putBytes 0 (numeral base x ++ [0]) buf)) := by
  have hbase : (base.setWidth 32).toNat = base.toNat := by
    rw [BitVec.toNat_setWidth]
    omega
  have hsize := toNat_outSize x hb
  dsimp only at hsize
  unfold itoaBase
  rw [ilog_eq (by omega), hbase, toNat_abs]
  show (if bufsize.setWidth 32 ≤ _ then _ else _) = _
  generalize (if x.slt 0 then _ else _ : Dword) = outSize at hsize ⊢
  have hle : bufsize.setWidth 32 ≤ outSize ↔ bufsize.toNat ≤ (numeral base x).length := by
    rw [BitVec.le_def, hsize, BitVec.toNat_setWidth]
    have := bufsize.isLt
    omega
  have hout : outSize = BitVec.ofNat 32 (numeral base x).length := by
    rw [← hsize, BitVec.ofNat_toNat, BitVec.setWidth_eq]
  by_cases hfit : bufsize.toNat ≤ (numeral base x).length
  · rw [if_pos (hle.2 hfit), if_pos hfit, ← hout]
    rfl
  · have hsign := sign_eq x
    have habs := toNat_unsigned x
    rw [if_neg (mt hle.1 hfit), if_neg hfit, ipow_eq, hbase, toNat_exponent hb, hsize]
    generalize (if x.slt 0 then [0x2d] else [] : List Byte) = sign at hsign ⊢
    generalize (if x.slt 0 then -x else x) = y at habs ⊢
    have hcount := length_numeral_sub hb x hsign
    have hlead : Numeral.leading base.toNat (Nat.log base.toNat x.toInt.natAbs + 1) y.toNat =
        Numeral.digits base.toNat x.toInt.natAbs := by
      rw [habs]
      exact Numeral.leading_eq (by omega) _
    have hy : y.toNat < base.toNat ^ (Nat.log base.toNat x.toInt.natAbs + 1) := by
      rw [habs]
      exact Nat.lt_pow_succ_log_self (by omega) _
    have hmag : ∀ k, Nat.log base.toNat x.toInt.natAbs + 1 = k + 1 →
        (BitVec.ofNat 32 (base.toNat ^ Nat.log base.toNat x.toInt.natAbs)).toNat =
          base.toNat ^ k := by
      intro k hk
      rw [toNat_magnitude, Nat.succ.inj hk]
    show some (0, Function.update (digitLoop _ _ _ _ _ _) _ 0) = _
    rw [hcount, digitLoop_eq hbase hb hb' _ hy hmag, hlead, putBytes_numeral base x buf hsign]

/-- From base 10 on, a numeral and its `NUL` fit into 32 bytes. -/
theorem length_numeral_lt {base : Byte} (hb : 10 ≤ base.toNat) (x : Dword) :
    (numeral base x).length < 32 := by
  have hpfx := length_getPrefix base
  have hlog : Nat.log base.toNat x.toInt.natAbs < 10 := by
    refine (Nat.log_anti_left (by decide) hb).trans_lt (Nat.log_lt_of_lt_pow' (by decide) ?_)
    exact (natAbs_toInt_le x).trans_lt (by decide)
  rw [length_numeral base (by omega)]
  split_ifs
  · omega
  · omega

/-- No digit is the terminating zero. -/
theorem digitChar_ne_zero {d : ℕ} (h : d < 36) : digitChar d ≠ 0 := by
  have hall : ∀ d < 36, digitChar d ≠ 0 := by decide
  exact hall d h

/-- No character of a prefix is the terminating zero. -/
theorem ne_zero_of_mem_getPrefix {base c : Byte} (h : c ∈ getPrefix base) : c ≠ 0 := by
  unfold getPrefix at h
  rintro rfl
  split_ifs at h <;> revert h <;> decide

/-- There is no `NUL` in a numeral. -/
theorem ne_zero_of_mem_numeral {base : Byte} (hb : 2 ≤ base.toNat) (hb' : base.toNat ≤ 36)
    {x : Dword} {c : Byte} (h : c ∈ numeral base x) : c ≠ 0 := by
  rw [numeral, List.mem_append, List.mem_append] at h
  rcases h with (h | h) | h
  · split_ifs at h
    · rw [List.mem_singleton.1 h]
      decide
    · exact absurd h List.not_mem_nil
  · exact ne_zero_of_mem_getPrefix h
  · obtain ⟨d, hd, rfl⟩ := List.mem_map.1 h
    have hlt := Numeral.digits_lt_base (by omega) hd
    exact digitChar_ne_zero (by omega)

/-- **`itoa` and `itoh` with 32 bytes** always succeed. -/
theorem itoa_eq (x : Dword) (buf : Buffer) :
    itoa x buf 32 = some (0, putBytes 0 (numeral 10 x ++ [0]) buf) := by
  have hlt : (numeral 10 x).length < 32 := length_numeral_lt (by decide) x
  have h32 : (32 : Word).toNat = 32 := rfl
  rw [itoa, itoaBase_eq x (by decide) (by decide), if_neg (by omega)]

/-- `itoh` stores the hexadecimal numeral with its terminating zero. -/
theorem itoh_eq (x : Dword) (buf : Buffer) :
    itoh x buf 32 = some (0, putBytes 0 (numeral 16 x ++ [0]) buf) := by
  have hlt : (numeral 16 x).length < 32 := length_numeral_lt (by decide) x
  have h32 : (32 : Word).toNat = 32 := rfl
  rw [itoh, itoaBase_eq x (by decide) (by decide), if_neg (by omega)]

end DrewOS
