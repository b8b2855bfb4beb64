/-
# The texts that `_itoa` stores

`itoaBase_eq` says that `_itoa` stores a numeral or nothing.  Here is what that
means for the buffer (`Stores`, and `itoaBase_respects` for every size of it) and
for a reader of the text: it is spelled as it should be (`Spells`), and it can be
read back (`parse_numeral`), so that no two numbers have one text.
-/

import DrewOS.Kernel.Itoa

namespace DrewOS

open ByteMem

/-! ### The buffer -/

/-- The text and the `NUL` behind it are in `buf'`, and what lies behind them is as it
was in `buf`. -/
structure Stores (buf buf' : Buffer) (text : List Byte) : Prop where
  bytes : ∀ i (hi : i < text.length), buf' i = text[i]
  nul : buf' text.length = 0
  frame : ∀ i, text.length < i → buf' i = buf i

/-- What is stored at the start of a buffer can be read from there as a string. -/
theorem stores_putBytes (buf : Buffer) (text : List Byte) :
    Stores buf (putBytes 0 (text ++ [0]) buf) text := by
  have hput : ∀ i, putBytes 0 (text ++ [0]) buf i = (text ++ [0])[i]?.getD (buf i) := fun i => by
    rw [putBytes_apply, if_pos (Nat.zero_le i), Nat.sub_zero]
  refine ⟨fun i hi => ?_, ?_, fun i hi => ?_⟩
  · rw [hput, List.getElem?_append_left hi, List.getElem?_eq_getElem hi]
    rfl
  · rw [hput, List.getElem?_concat_length]
    rfl
  · have hlength : (text ++ [0]).length ≤ i := by
      rwa [List.length_append]
    rw [hput, List.getElem?_eq_none hlength]
    rfl

/-- The numeral fits. -/
theorem itoaBase_fits (x : Dword) {base : Byte} (hb : 2 ≤ base.toNat) (hb' : base.toNat ≤ 36)
    (buf : Buffer) {bufsize : Word} (hfit : (numeral base x).length < bufsize.toNat) :
    ∃ buf', itoaBase x base buf bufsize = some (0, buf') ∧ Stores buf buf' (numeral base x) := by
  refine ⟨_, ?_, stores_putBytes buf (numeral base x)⟩
  rw [itoaBase_eq x hb hb', if_neg (Nat.not_le.2 hfit)]

/-- A numeral is short. -/
theorem length_numeral_le {base : Byte} (hb : 2 ≤ base.toNat) (x : Dword) :
    1 ≤ (numeral base x).length ∧ (numeral base x).length ≤ 35 := by
  have hpfx := length_getPrefix base
  have hlog := log_natAbs_lt hb x
  rw [length_numeral base hb]
  constructor
  · omega
  · split_ifs <;> omega

/-- The numeral does not fit. -/
theorem itoaBase_refuses (x : Dword) {base : Byte} (hb : 2 ≤ base.toNat) (hb' : base.toNat ≤ 36)
    (buf : Buffer) {bufsize : Word} (hfit : bufsize.toNat ≤ (numeral base x).length) :
    ∃ r : Dword, itoaBase x base buf bufsize = some (r, buf) ∧
      r.toNat = (numeral base x).length := by
  refine ⟨BitVec.ofNat 32 (numeral base x).length, ?_, ?_⟩
  · rw [itoaBase_eq x hb hb', if_pos hfit]
  · have hlength := length_numeral_le hb x
    rw [BitVec.toNat_ofNat]
    omega

/-- **`_itoa` respects its buffer.**  It is refused if the numeral and its `NUL` do not
fit, and the result is then the length: a buffer of one byte more is enough.  In no
case is a byte from `bufsize` on changed. -/
theorem itoaBase_respects (x : Dword) {base : Byte} (hb : 2 ≤ base.toNat)
    (hb' : base.toNat ≤ 36) (bufsize : Word) (buf : Buffer) :
    (bufsize.toNat ≤ (numeral base x).length →
      ∃ r : Dword, itoaBase x base buf bufsize = some (r, buf) ∧
        r.toNat = (numeral base x).length ∧ r ≠ 0 ∧
        ∀ retry : Word, retry.toNat = r.toNat + 1 → ∀ buf₁ : Buffer,
          ∃ buf', itoaBase x base buf₁ retry = some (0, buf') ∧
            Stores buf₁ buf' (numeral base x)) ∧
    ((numeral base x).length < bufsize.toNat →
      ∃ buf', itoaBase x base buf bufsize = some (0, buf') ∧
        Stores buf buf' (numeral base x)) ∧
    ∃ r buf', itoaBase x base buf bufsize = some (r, buf') ∧
      ∀ i, bufsize.toNat ≤ i → buf' i = buf i := by
  refine ⟨fun hfit => ?_, itoaBase_fits x hb hb' buf, ?_⟩
  · obtain ⟨r, hrun, hr⟩ := itoaBase_refuses x hb hb' buf hfit
    refine ⟨r, hrun, hr, ?_, fun retry hretry buf₁ => ?_⟩
    · rintro rfl
      have hlength := length_numeral_le hb x
      have hzero : (0 : Dword).toNat = 0 := rfl
      omega
    · exact itoaBase_fits x hb hb' buf₁ (by omega)
  · rcases Nat.lt_or_ge (numeral base x).length bufsize.toNat with hfit | hfit
    · obtain ⟨buf', hrun, hstores⟩ := itoaBase_fits x hb hb' buf hfit
      exact ⟨0, buf', hrun, fun i hi => hstores.frame i (by omega)⟩
    · obtain ⟨r, hrun, -⟩ := itoaBase_refuses x hb hb' buf hfit
      exact ⟨r, buf, hrun, fun _ _ => rfl⟩

/-- The longest numeral, of `INT32_MIN` in base 2, in a buffer that is one byte short. -/
theorem itoaBase_respects_least :
    ∃ r : Dword, itoaBase 0x80000000 2 (fun _ => 0) 35 = some (r, fun _ => 0) ∧ r.toNat = 35 := by
  have hlength : (numeral 2 0x80000000).length = 35 := by
    have hlog : Nat.log 2 (2 ^ 31) = 31 := Nat.log_pow (by decide) 31
    rw [length_numeral 2 (by decide)]
    exact congrArg (fun n => 3 + (n + 1)) hlog
  have hfit : (35 : Word).toNat ≤ (numeral 2 0x80000000).length := hlength.ge
  obtain ⟨r, hrun, hr, -⟩ :=
    (@itoaBase_respects 0x80000000 2 (by decide) (by decide) 35 fun _ => 0).1 hfit
  exact ⟨r, hrun, hr.trans hlength⟩

/-! ### The text -/

/-- Sign, prefix and digits of `x`. -/
def Spells (base : Byte) (x : Dword) (text : List Byte) : Prop :=
  ∃ ds, Numeral.IsDigits base.toNat x.toInt.natAbs ds ∧
    text = (if x.toInt < 0 then [0x2d] else []) ++ getPrefix base ++ ds.map digitChar

/-- The numeral spells the number. -/
theorem spells_numeral {base : Byte} (hb : 2 ≤ base.toNat) (x : Dword) :
    Spells base x (numeral base x) :=
  ⟨_, Numeral.isDigits_digits hb _, rfl⟩

/-- The digit that a character stands for. -/
def digitValue (c : Byte) : Option ℕ :=
  if 0x30 ≤ c.toNat ∧ c.toNat ≤ 0x39 then some (c.toNat - 0x30)
  else if 0x61 ≤ c.toNat ∧ c.toNat ≤ 0x7a then some (c.toNat - 0x57)
  else none

/-- The number of a text without a sign. -/
def parseMagnitude (base : Byte) (text : List Byte) : Option ℕ := do
  let ds ← (text.drop (getPrefix base).length).mapM digitValue
  if getPrefix base <+: text ∧ ds ≠ [] ∧ ∀ d ∈ ds, d < base.toNat then
    some (Nat.ofDigits base.toNat ds.reverse)
  else none

/-- The number of a text. -/
def parse (base : Byte) (text : List Byte) : Option ℤ :=
  if text.head? = some 0x2d then (parseMagnitude base text.tail).map fun n => -(n : ℤ)
  else (parseMagnitude base text).map (↑)

/-- The value of a digit's character is the digit. -/
theorem digitValue_digitChar {d : ℕ} (h : d < 36) : digitValue (digitChar d) = some d := by
  have hall : ∀ d < 36, digitValue (digitChar d) = some d := by decide
  exact hall d h

/-- Reading the characters of digits gives the digits back. -/
theorem mapM_digitValue {ds : List ℕ} (h : ∀ d ∈ ds, d < 36) :
    (ds.map digitChar).mapM digitValue = some ds := by
  induction ds with
  | nil => rfl
  | cons d ds ih =>
    have hrest := ih fun e he => h e (List.mem_cons_of_mem _ he)
    rw [List.map_cons, List.mapM_cons, digitValue_digitChar (h d (List.mem_cons_self ..)), hrest]
    rfl

/-- What is not the sign of a numeral is read back. -/
theorem parseMagnitude_eq {base : Byte} (hb' : base.toNat ≤ 36) {n : ℕ} {ds : List ℕ}
    (h : Numeral.IsDigits base.toNat n ds) :
    parseMagnitude base (getPrefix base ++ ds.map digitChar) = some n := by
  have hlt : ∀ d ∈ ds, d < 36 := fun d hd => (h.lt_base d hd).trans_le hb'
  have hall : getPrefix base <+: getPrefix base ++ ds.map digitChar ∧ ds ≠ [] ∧
      ∀ d ∈ ds, d < base.toNat := ⟨List.prefix_append .., h.ne_nil, h.lt_base⟩
  unfold parseMagnitude
  rw [List.drop_left, mapM_digitValue hlt]
  exact (if_pos hall).trans (congrArg some h.value)

/-- There is no sign in it. -/
theorem head_magnitude {base : Byte} {ds : List ℕ} (h : ∀ d ∈ ds, d < 36) :
    (getPrefix base ++ ds.map digitChar).head? ≠ some 0x2d := by
  intro hhead
  rcases List.mem_append.1 (List.mem_of_head? hhead) with hmem | hmem
  · unfold getPrefix at hmem
    split_ifs at hmem <;> revert hmem <;> decide
  · obtain ⟨d, hd, hchar⟩ := List.mem_map.1 hmem
    have hall : ∀ d < 36, digitChar d ≠ 0x2d := by decide
    exact hall d (h d hd) hchar

/-- **The text is read back.** -/
theorem parse_numeral {base : Byte} (hb : 2 ≤ base.toNat) (hb' : base.toNat ≤ 36) (x : Dword) :
    parse base (numeral base x) = some x.toInt := by
  have hdigits := Numeral.isDigits_digits hb x.toInt.natAbs
  have hmagnitude := parseMagnitude_eq hb' hdigits
  unfold parse numeral
  by_cases hneg : x.toInt < 0
  · rw [if_pos hneg, List.append_assoc, List.singleton_append, List.head?_cons, if_pos rfl,
      List.tail_cons, hmagnitude]
    have hvalue : -(x.toInt.natAbs : ℤ) = x.toInt := by omega
    exact congrArg some hvalue
  · have hlt : ∀ d ∈ Numeral.digits base.toNat x.toInt.natAbs, d < 36 := fun d hd =>
      (hdigits.lt_base d hd).trans_le hb'
    have hhead : (getPrefix base ++ _).head? ≠ some 0x2d := head_magnitude hlt
    rw [if_neg hneg, List.nil_append, if_neg hhead, hmagnitude]
    have hvalue : (x.toInt.natAbs : ℤ) = x.toInt := by omega
    exact congrArg some hvalue

/-- Different numbers have different numerals. -/
theorem numeral_injective {base : Byte} (hb : 2 ≤ base.toNat) (hb' : base.toNat ≤ 36) :
    Function.Injective (numeral base) := by
  intro x y hxy
  have hparse := congrArg (parse base) hxy
  rw [parse_numeral hb hb', parse_numeral hb hb'] at hparse
  exact BitVec.eq_of_toInt_eq (Option.some.inj hparse)

/-- **`_itoa` stores the exact numeral.** -/
theorem itoaBase_numeral {base : Byte} (hb : 2 ≤ base.toNat) (hb' : base.toNat ≤ 36) :
    (∀ (x : Dword) (buf : Buffer) (bufsize : Word),
      (numeral base x).length < bufsize.toNat →
        ∃ buf', itoaBase x base buf bufsize = some (0, buf') ∧
          Stores buf buf' (numeral base x)) ∧
    (∀ x, Spells base x (numeral base x) ∧ parse base (numeral base x) = some x.toInt) ∧
    ∀ x y, numeral base x = numeral base y → x = y :=
  ⟨fun x buf _ => itoaBase_fits x hb hb' buf,
    fun x => ⟨spells_numeral hb x, parse_numeral hb hb' x⟩,
    fun _ _ h => numeral_injective hb hb' h⟩

/-- In base 16, with the buffer of `_cprint`. -/
theorem itoaBase_numeral_hex :
    (∃ buf', itoaBase (-255) 16 (fun _ => 0) 32 = some (0, buf') ∧
      Stores (fun _ => 0) buf' (numeral 16 (-255))) ∧
    parse 16 (numeral 16 (-255)) = some (-255) := by
  obtain ⟨hstores, hread, -⟩ := @itoaBase_numeral 16 (by decide) (by decide)
  exact ⟨hstores _ _ _ (length_numeral_lt (by decide) _), (hread _).2⟩

end DrewOS
