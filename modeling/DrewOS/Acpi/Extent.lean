/-
# How far the walk goes

The number of entries of the root table against the tables that it lists
(`xsdt_agrees_iff`) and against its length (`rsdt_walk_inside_iff`).
-/

import DrewOS.Acpi.Install

namespace DrewOS
namespace Acpi

open ByteMem Effect

/-! ### Two formats of one list -/

/-- The RSDT at `r` lists `ts`, in entries of 4 bytes. -/
structure ListsRsdt (m : Mem) (r : Addr) (ts : List Addr) : Prop where
  length : m.load32 (r + LENGTH) = BitVec.ofNat 32 (36 + 4 * ts.length)
  entry : ∀ i (hi : i < ts.length),
    m.load32 (r + SDT_HEADER_SIZE + 4 * BitVec.ofNat 32 i) = ts[i]

/-- The XSDT at `x` lists `ts`, in entries of 8 bytes whose high half is 0. -/
structure ListsXsdt (m : Mem) (x : Addr) (ts : List Addr) : Prop where
  length : m.load32 (x + LENGTH) = BitVec.ofNat 32 (36 + 8 * ts.length)
  entry : ∀ i (hi : i < ts.length),
    m.load32 (x + SDT_HEADER_SIZE + 8 * BitVec.ofNat 32 i) = ts[i]
  high : ∀ i < ts.length, m.load32 (x + SDT_HEADER_SIZE + 8 * BitVec.ofNat 32 i + 4) = 0

section Agree

variable {ε : Type}

/-- `w` with `r` and `x` installed as root tables. -/
def withRoots (r x : Addr) (w : World ε) : World ε :=
  { w with kernel := { w.kernel with acpi := roots r x w.kernel.acpi } }

/-- A lookup through the RSDT at `r` and one through the XSDT at `x` return the same
table, and both examine the first `n` entries only. -/
def Agrees (b : Bus ε) (w : World ε) (r x : Addr) (n : ℕ) (signature : Signature) : Prop :=
  ∃ a is js, Yields b (walk signature) (withRoots r 0 w) (a, is) ∧
    Yields b (walk signature) (withRoots 0 x w) (a, js) ∧
    (∀ i ∈ is, i.toNat < n) ∧ ∀ j ∈ js, j.toNat < n

/-- All numbers are below `n` exactly if there are at most `n` of them. -/
theorem mem_numbers_lt_iff {k n : ℕ} (hk : k < 2 ^ 32) :
    (∀ i ∈ numbers k 0, i.toNat < n) ↔ k ≤ n := by
  have hnumber : ∀ j < k, ((0 : Dword) + BitVec.ofNat 32 j).toNat = j := by
    intro j hj
    rw [zero_add_ofNat, BitVec.toNat_ofNat]
    omega
  unfold numbers
  simp only [List.mem_map, List.mem_range, forall_exists_index, and_imp, forall_apply_eq_imp_iff₂]
  constructor
  · intro h
    by_contra hlt
    have hn := h n (by omega)
    rw [hnumber n (by omega)] at hn
    exact absurd hn (lt_irrefl n)
  · intro h j hj
    rw [hnumber j hj]
    omega

/-- The number of entries, computed modulo `2 ^ 32`. -/
theorem toNat_numEntries (length : Dword) :
    ((length - SDT_HEADER_SIZE) / 4).toNat = (2 ^ 32 - 36 + length.toNat) % 2 ^ 32 / 4 := by
  have h36 : SDT_HEADER_SIZE.toNat = 36 := rfl
  have h4 : (4 : Dword).toNat = 4 := rfl
  rw [BitVec.toNat_udiv, BitVec.toNat_sub, h36, h4]

variable {m : Mem} {s : AcpiStatics} {ts : List Addr}

/-- Through the RSDT exactly the listed tables are looked at. -/
theorem tables_rsdt (h : ListsRsdt m s.rsdt ts) (hr : s.rsdt ≠ 0)
    (hlen : 36 + 8 * ts.length < 2 ^ 32) : tables m s = ts := by
  have hnum : (numTables m s).toNat = ts.length := by
    rw [numTables, if_pos hr, h.length, toNat_numEntries, BitVec.toNat_ofNat]
    omega
  rw [tables, hnum]
  refine tablesFrom_eq fun j hj => ?_
  rw [tableAt, if_pos hr, zero_add_ofNat]
  exact h.entry j hj

/-- Through the XSDT the listed tables are followed by as many others. -/
theorem tables_xsdt (h : ListsXsdt m s.xsdt ts) (hr : s.rsdt = 0) (hx : s.xsdt ≠ 0)
    (hlen : 36 + 8 * ts.length < 2 ^ 32) :
    tables m s = ts ++ tablesFrom m s ts.length (0 + BitVec.ofNat 32 ts.length) := by
  have hnum : (numTables m s).toNat = ts.length + ts.length := by
    rw [numTables, if_neg (not_not.2 hr), if_pos hx, h.length, toNat_numEntries,
      BitVec.toNat_ofNat]
    omega
  rw [tables, hnum, tablesFrom_add]
  refine congrArg (· ++ _) (tablesFrom_eq fun j hj => ?_)
  rw [tableAt, if_neg (not_not.2 hr), if_pos hx, zero_add_ofNat]
  exact h.entry j hj

end Agree

/-- **When the XSDT path agrees with the RSDT path.**  For every memory that holds
one list of tables in both formats, the two lookups agree if and only if the list
is empty or one of its tables is a sound one with the wanted signature: otherwise
the walk of the XSDT goes on behind the list. -/
theorem xsdt_agrees_iff {ε : Type} (b : Bus ε) (w : World ε) {r x : Addr} (hr : r ≠ 0) (hx : x ≠ 0)
    (ts : List Addr) (hlen : 36 + 8 * ts.length < 2 ^ 32) (hrsdt : ListsRsdt w.mem r ts)
    (hxsdt : ListsXsdt w.mem x ts) (signature : Signature) :
    Agrees b w r x ts.length signature ↔
      ts = [] ∨ ∃ t ∈ ts, tableValid w.mem signature t = true := by
  have htr : tables w.mem (roots r 0 w.kernel.acpi) = ts := tables_rsdt hrsdt hr hlen
  have htx := tables_xsdt (s := roots 0 x w.kernel.acpi) hxsdt rfl hx hlen
  have hwr := yields_walk (b := b) signature (withRoots r 0 w)
  have hwx := yields_walk (b := b) signature (withRoots 0 x w)
  simp only [withRoots, sdt, htr, htx] at hwr hwx
  have hshort := examined_le_length (tableValid w.mem signature) ts
  generalize tableValid w.mem signature = p at hwr hwx hshort ⊢
  have hus := length_tablesFrom w.mem (roots 0 x w.kernel.acpi) ts.length
    (0 + BitVec.ofNat 32 ts.length)
  generalize tablesFrom w.mem (roots 0 x w.kernel.acpi) ts.length
    (0 + BitVec.ofNat 32 ts.length) = us at hwx hus
  have hlong := examined_le_length p (ts ++ us)
  rw [List.length_append, hus] at hlong
  constructor
  · rintro ⟨a, is, js, -, hjs, -, hlt⟩
    obtain ⟨-, rfl⟩ := Prod.mk.inj (hjs.unique hwx)
    rw [mem_numbers_lt_iff (by omega)] at hlt
    by_contra hnot
    obtain ⟨hne, hnone⟩ := not_or.1 hnot
    have hnone' : ∀ t ∈ ts, p t = false := fun t ht =>
      Bool.eq_false_of_not_eq_true fun hp => hnone ⟨t, ht, hp⟩
    have hpos : 0 < examined p us := examined_pos fun hnil => by
      rw [hnil] at hus
      exact hne (List.length_eq_zero_iff.1 hus.symm)
    rw [examined_append_of_forall hnone'] at hlt
    omega
  · intro h
    have hsame : examined p (ts ++ us) = examined p ts ∧
        firstValid p (ts ++ us) = firstValid p ts := by
      rcases h with rfl | h
      · rw [List.length_eq_zero_iff.1 hus]
        exact ⟨rfl, rfl⟩
      · exact examined_append_of_mem h us
    rw [hsame.1, hsame.2] at hwx
    refine ⟨_, _, _, hwr, hwx, ?_, ?_⟩
    · exact (mem_numbers_lt_iff (by omega)).2 hshort
    · exact (mem_numbers_lt_iff (by omega)).2 hshort

/-- The results of two lookups that agree. -/
theorem Agrees.sdt_eq {ε : Type} {b : Bus ε} {w : World ε} {r x : Addr} {n : ℕ}
    {signature : Signature} (h : Agrees b w r x n signature) :
    sdt w.mem (roots r 0 w.kernel.acpi) signature =
      sdt w.mem (roots 0 x w.kernel.acpi) signature := by
  obtain ⟨a, is, js, his, hjs, -⟩ := h
  have hr := his.unique (yields_walk signature _)
  have hx := hjs.unique (yields_walk signature _)
  exact (congrArg Prod.fst hr).symm.trans (congrArg Prod.fst hx)

/-- An RSDT at `0x1000` and an XSDT at `0x3000` that list one table of zeros at
`0x4000`; behind the entry of the XSDT stands the address of a sound FADT. -/
def listedTwice : Mem := image
  [(0x1000, [0, 0, 0, 0, 40, 0, 0, 0, 0, 152] ++ List.replicate 27 0 ++ [0x40]),
    (0x2000, [0x46, 0x41, 0x43, 0x50, 36, 0, 0, 0, 0, 0xc2]),
    (0x3000, [0, 0, 0, 0, 44, 0, 0, 0, 0, 148] ++ List.replicate 27 0 ++
      [0x40, 0, 0, 0, 0, 0, 0, 0, 0x20])]

/-- The RSDT lists the one table. -/
theorem listsRsdt_listedTwice : ListsRsdt listedTwice 0x1000 [0x4000] where
  length := by decide
  entry := by
    intro i hi
    obtain rfl : i = 0 := Nat.lt_one_iff.1 hi
    rw [List.getElem_cons_zero]
    decide

/-- The XSDT lists the same one. -/
theorem listsXsdt_listedTwice : ListsXsdt listedTwice 0x3000 [0x4000] where
  length := by decide
  entry := by
    intro i hi
    obtain rfl : i = 0 := Nat.lt_one_iff.1 hi
    rw [List.getElem_cons_zero]
    decide
  high := by
    intro i hi
    obtain rfl : i = 0 := Nat.lt_one_iff.1 hi
    decide

/-- The two tables list one table, which is sound: both find it. -/
theorem xsdt_agrees_iff_listedTwice :
    Agrees Bus.silent (.boot () emptyIdt listedTwice) 0x1000 0x3000 1 MADT_SIGNATURE ↔
      ([0x4000] : List Addr) = [] ∨
        ∃ t ∈ ([0x4000] : List Addr), tableValid listedTwice MADT_SIGNATURE t = true :=
  xsdt_agrees_iff Bus.silent (.boot () emptyIdt listedTwice) (by decide) (by decide) [0x4000]
    (by decide) listsRsdt_listedTwice listsXsdt_listedTwice MADT_SIGNATURE

/-- The FADT is not listed, and the lookup through the XSDT finds it. -/
theorem not_agrees_listedTwice :
    ListsRsdt listedTwice 0x1000 [0x4000] ∧ ListsXsdt listedTwice 0x3000 [0x4000] ∧
      ¬ Agrees Bus.silent (.boot () emptyIdt listedTwice) 0x1000 0x3000 1 FADT_SIGNATURE := by
  refine ⟨listsRsdt_listedTwice, listsXsdt_listedTwice, fun h => ?_⟩
  have hr : sdt listedTwice (roots 0x1000 0 ⟨0, 0, 0, 0, 0, 0⟩) FADT_SIGNATURE = 0 := by decide
  have hx : sdt listedTwice (roots 0 0x3000 ⟨0, 0, 0, 0, 0, 0⟩) FADT_SIGNATURE = 0x2000 := by
    decide
  have heq := hr.symm.trans (h.sdt_eq.trans hx)
  exact absurd heq (by decide)

/-! ### The end of the root table -/

/-- The entry with number `i` lies wholly at the offsets `[36, length)` of its table. -/
def EntryInside (length i : Dword) : Prop :=
  ∀ k < 4, 36 ≤ (SDT_HEADER_SIZE + 4 * i + BitVec.ofNat 32 k).toNat ∧
    (SDT_HEADER_SIZE + 4 * i + BitVec.ofNat 32 k).toNat < length.toNat

section Inside

variable {ε : Type} {b : Bus ε}

/-- The walk for `signature` reads entries of a table of `length` bytes only inside it. -/
def WalksInside (b : Bus ε) (w : World ε) (length : Dword) (signature : Signature) : Prop :=
  ∃ a is, Yields b (walk signature) w (a, is) ∧ ∀ i ∈ is, EntryInside length i

/-- An entry below the quotient of the length ends before it. -/
theorem entryInside_ofNat {length : Dword} (h : 36 ≤ length.toNat) {j : ℕ}
    (hj : j < ((length - SDT_HEADER_SIZE) / 4).toNat) :
    EntryInside length (0 + BitVec.ofNat 32 j) := by
  intro k hk
  rw [toNat_numEntries] at hj
  have hlt : length.toNat < 2 ^ 32 := length.isLt
  have hoffset : (SDT_HEADER_SIZE + 4 * (0 + BitVec.ofNat 32 j) + BitVec.ofNat 32 k).toNat =
      36 + 4 * j + k := by
    have h36 : SDT_HEADER_SIZE.toNat = 36 := rfl
    have h4 : (4 : Dword).toNat = 4 := rfl
    rw [zero_add_ofNat, BitVec.toNat_add, BitVec.toNat_add, BitVec.toNat_mul, BitVec.toNat_ofNat,
      BitVec.toNat_ofNat, h36, h4]
    omega
  rw [hoffset]
  omega

/-- The first entry of a table without room for its header is not inside it. -/
theorem not_entryInside_zero {length : Dword} (h : length.toNat < 36) :
    ¬ EntryInside length 0 := by
  intro hinside
  obtain ⟨hlow, hhigh⟩ := hinside 0 (by decide)
  omega

variable {w : World ε} {r x : Addr}

/-- The tables of an installed RSDT are counted by its length. -/
theorem length_tables_init (hr : r ≠ 0) :
    (tables w.mem (runRootCall b w (.init r x)).kernel.acpi).length =
      ((w.mem.load32 (r + LENGTH) - SDT_HEADER_SIZE) / 4).toNat := by
  rw [tables, length_tablesFrom, numTables, (roots_init r x w).1, if_pos hr]

/-- Behind an installation, the walk is that over the tables of the root that was installed. -/
theorem yields_walk_init (signature : Signature) :
    Yields b (walk signature) (runRootCall b w (.init r x))
      (sdt w.mem (runRootCall b w (.init r x)).kernel.acpi signature,
        numbers (examined (tableValid w.mem signature)
          (tables w.mem (runRootCall b w (.init r x)).kernel.acpi)) 0) := by
  have hwalk := yields_walk (b := b) signature (runRootCall b w (.init r x))
  rwa [runRootCall_mem] at hwalk

/-- With a length below the size of the header the walk goes to the first entry all
the same: the number of entries wraps around. -/
theorem not_walksInside_of_short (hr : r ≠ 0) (h : (w.mem.load32 (r + LENGTH)).toNat < 36)
    (signature : Signature) :
    ¬ WalksInside b (runRootCall b w (.init r x)) (w.mem.load32 (r + LENGTH)) signature := by
  rintro ⟨a, is, hwalk, hinside⟩
  have hpos : 0 < examined (tableValid w.mem signature)
      (tables w.mem (runRootCall b w (.init r x)).kernel.acpi) := by
    refine examined_pos fun hnil => ?_
    have hlength := length_tables_init (b := b) (w := w) (x := x) hr
    rw [hnil, List.length_nil, toNat_numEntries] at hlength
    omega
  obtain ⟨k, hk⟩ := Nat.exists_eq_succ_of_ne_zero hpos.ne'
  obtain ⟨-, rfl⟩ := Prod.mk.inj (hwalk.unique (yields_walk_init signature))
  rw [hk, numbers_succ] at hinside
  exact not_entryInside_zero h (hinside 0 (List.mem_cons_self ..))

end Inside

/-- **When the walk stays inside the RSDT.**  After `rsdt_init` has installed an RSDT,
every lookup reads entries inside it only, if and only if its length covers its own
header; that its checksum is accepted says nothing of that. -/
theorem rsdt_walk_inside_iff {ε : Type} (b : Bus ε) (w : World ε) {r : Addr} (x : Addr)
    (hr : r ≠ 0) :
    (∀ signature, WalksInside b (runRootCall b w (.init r x)) (w.mem.load32 (r + LENGTH))
      signature) ↔ 36 ≤ (w.mem.load32 (r + LENGTH)).toNat := by
  constructor
  · intro h
    by_contra hshort
    exact not_walksInside_of_short hr (Nat.lt_of_not_le hshort) FADT_SIGNATURE (h FADT_SIGNATURE)
  · intro h signature
    refine ⟨_, _, yields_walk_init signature, fun i hi => ?_⟩
    unfold numbers at hi
    obtain ⟨j, hj, rfl⟩ := List.mem_map.1 hi
    have hle := examined_le_length (tableValid w.mem signature)
      (tables w.mem (runRootCall b w (.init r x)).kernel.acpi)
    rw [length_tables_init hr] at hle
    exact entryInside_ofNat h ((List.mem_range.1 hj).trans_le hle)

/-- With room for a header, the walk stays inside the table. -/
theorem rsdt_walk_inside_iff_listedTwice :
    (∀ signature, WalksInside Bus.silent
      (runRootCall Bus.silent (.boot () emptyIdt listedTwice) (.init 0x1000 0))
      (listedTwice.load32 (0x1000 + LENGTH)) signature) ↔
    36 ≤ (listedTwice.load32 (0x1000 + LENGTH)).toNat :=
  rsdt_walk_inside_iff Bus.silent (.boot () emptyIdt listedTwice) 0 (by decide)

/-- In a memory of zeros every table is accepted: no byte is summed up.  The walk of
such an RSDT leaves it. -/
theorem not_walksInside_zeros :
    (RootCall.init 0x1000 0).accepts (image []) = true ∧
      ¬ ∀ signature, WalksInside Bus.silent
        (runRootCall Bus.silent (.boot () emptyIdt (image [])) (.init 0x1000 0))
        ((image []).load32 (0x1000 + LENGTH)) signature := by
  refine ⟨by decide, fun h => ?_⟩
  have hshort : ((image []).load32 (0x1000 + LENGTH)).toNat < 36 := by decide
  exact not_walksInside_of_short (w := .boot () emptyIdt (image [])) (by decide) hshort
    FADT_SIGNATURE (h FADT_SIGNATURE)

end Acpi
end DrewOS
