/-
# The searches for the root pointer and for a table

Both `sdp_search` and `get_sdt` are linear searches (`sdpFrom_eq_search`,
`firstValid_eq_search`): through the addresses that are multiples of 16, and through
the entries of the root table.  `locateSdp_lowest` and `getSdt_first` say what they
find, in terms of the bytes in memory.
-/

import DrewOS.Acpi.Checksum
import DrewOS.Acpi.Extent
import DrewOS.Search.Linear
import Mathlib.Tactic.IntervalCases

namespace DrewOS
namespace Acpi

open ByteMem Effect LinearSearch

/-! ### Signatures as bytes -/

/-- Two quadwords are equal if their halves are. -/
theorem append_inj_iff (x x' y y' : Dword) : x ++ y = x' ++ y' ↔ x = x' ∧ y = y' := by
  constructor
  · intro h
    have hlow : y = y' := by
      have hset := congrArg (BitVec.setWidth 32) h
      rwa [setWidth_qword, setWidth_qword] at hset
    rw [hlow] at h
    exact ⟨(BitVec.append_left_inj y').1 h, hlow⟩
  · rintro ⟨rfl, rfl⟩
    rfl

/-- A doubleword is the number of its four bytes. -/
theorem load32_eq_iff (m : Mem) (a : Addr) (b0 b1 b2 b3 : Byte) :
    m.load32 a = BitVec.ofNat 32
        (b0.toNat + 2 ^ 8 * b1.toNat + 2 ^ 16 * b2.toNat + 2 ^ 24 * b3.toNat) ↔
      m a = b0 ∧ m (a + 1) = b1 ∧ m (a + 2) = b2 ∧ m (a + 3) = b3 := by
  constructor
  · intro h
    have hnum := congrArg BitVec.toNat h
    have h0 := (m a).isLt
    have h1 := (m (a + 1)).isLt
    have h2 := (m (a + 2)).isLt
    have h3 := (m (a + 3)).isLt
    have h0' := b0.isLt
    have h1' := b1.isLt
    have h2' := b2.isLt
    have h3' := b3.isLt
    simp only [Mem.load32, BitVec.toNat_ofNat, BitVec.ofNat_eq_ofNat] at hnum h0 h1 h2 h3
    refine ⟨BitVec.eq_of_toNat_eq ?_, BitVec.eq_of_toNat_eq ?_, BitVec.eq_of_toNat_eq ?_,
      BitVec.eq_of_toNat_eq ?_⟩
    · omega
    · simp only [BitVec.ofNat_eq_ofNat]
      omega
    · simp only [BitVec.ofNat_eq_ofNat]
      omega
    · simp only [BitVec.ofNat_eq_ofNat]
      omega
  · rintro ⟨rfl, rfl, rfl, rfl⟩
    rfl

/-- `"RSD PTR "`. -/
def rsdpText : Vector Byte 8 := #v[0x52, 0x53, 0x44, 0x20, 0x50, 0x54, 0x52, 0x20]

/-- The bytes from `a` are those of `text`. -/
def Spelled {n : ℕ} (m : Mem) (text : Vector Byte n) (a : Addr) : Prop :=
  ∀ i (hi : i < n), m (a + BitVec.ofNat 32 i) = text[i]

/-- The signature is compared as one number. -/
theorem rsdpSignature_iff (m : Mem) (a : Addr) :
    m.load32 (a + 4) ++ m.load32 a = RSDP_SIGNATURE ↔ Spelled m rsdpText a := by
  have hsplit : RSDP_SIGNATURE = (0x20525450 : Dword) ++ (0x20445352 : Dword) := rfl
  have hlow : m.load32 a = 0x20445352 ↔ _ := load32_eq_iff m a 0x52 0x53 0x44 0x20
  have hhigh : m.load32 (a + 4) = 0x20525450 ↔ _ :=
    load32_eq_iff m (a + 4) 0x50 0x54 0x52 0x20
  have hoffset : a + 4 + 1 = a + 5 ∧ a + 4 + 2 = a + 6 ∧ a + 4 + 3 = a + 7 :=
    ⟨add_ofNat_add a 4 1, add_ofNat_add a 4 2, add_ofNat_add a 4 3⟩
  rw [hsplit, append_inj_iff, hlow, hhigh, hoffset.1, hoffset.2.1, hoffset.2.2]
  constructor
  · rintro ⟨⟨h4, h5, h6, h7⟩, h0, h1, h2, h3⟩ i hi
    interval_cases i
    · rwa [add_ofNat_zero]
    · exact h1
    · exact h2
    · exact h3
    · exact h4
    · exact h5
    · exact h6
    · exact h7
  · intro h
    have hfirst := h 0 (by decide)
    rw [add_ofNat_zero] at hfirst
    exact ⟨⟨h 4 (by decide), h 5 (by decide), h 6 (by decide), h 7 (by decide)⟩, hfirst,
      h 1 (by decide), h 2 (by decide), h 3 (by decide)⟩

/-- A valid root pointer. -/
structure ValidRsdp (m : Mem) (a : Addr) : Prop where
  signature : Spelled m rsdpText a
  checksum : sumAt m 20 a % 256 = 0

/-- What `validate_rsdp` computes is that the pointer is sound. -/
theorem rsdpValid_iff (m : Mem) (a : Addr) : rsdpValid m a = true ↔ ValidRsdp m a := by
  rw [rsdpValid, Bool.and_eq_true, beq_iff_eq, beq_iff_eq, rsdpSignature_iff,
    byteSum_eq_zero_iff]
  exact ⟨fun h => ⟨h.1, h.2⟩, fun h => ⟨h.1, h.2⟩⟩

/-! ### The search for the root pointer -/

/-- The scan of `locate_sdp` is a search in steps of 16. -/
theorem sdpFrom_eq_search (m : Mem) (n : ℕ) (i : Addr) :
    sdpFrom m n i = (search (rsdpValid m) (· + RSDP_ALIGN) n i).getD 0 := by
  induction n generalizing i with
  | zero => rfl
  | succ n ih =>
    rw [sdpFrom, search]
    split_ifs
    · rfl
    · exact ih _

/-- The candidates are 16 bytes apart. -/
theorem iterate_align (k : ℕ) (i : Addr) :
    (· + RSDP_ALIGN)^[k] i = i + BitVec.ofNat 32 (16 * k) := by
  induction k with
  | zero => exact (BitVec.add_zero i).symm
  | succ k ih =>
    rw [Function.iterate_succ_apply', ih]
    exact add_ofNat_add i (16 * k) 16

/-- The valid root pointers among `n` candidates from `start` on. -/
def rsdpsFrom (m : Mem) (start n : ℕ) : Set ℕ :=
  {a | ∃ k < n, a = start + 16 * k ∧ ValidRsdp m (BitVec.ofNat 32 a)}

/-- `*(uint16_t *)EBDA_BASE_ADDRESS`. -/
def ebdaWord (m : Mem) : Word := m (EBDA_BASE_ADDRESS + 1) ++ m EBDA_BASE_ADDRESS

/-- The valid root pointers in the first kilobyte of the extended BIOS data area. -/
def ebdaRsdps (m : Mem) : Set ℕ := rsdpsFrom m (16 * (ebdaWord m).toNat) 64

/-- The valid root pointers in the BIOS. -/
def biosRsdps (m : Mem) : Set ℕ :=
  {a | 16 ∣ a ∧ 0xe0000 ≤ a ∧ a ≤ 0xffff0 ∧ ValidRsdp m (BitVec.ofNat 32 a)}

variable {m : Mem}

/-- The candidates do not wrap around. -/
theorem toNat_candidate {start : Addr} {n k : ℕ} (hfit : start.toNat + 16 * n ≤ 2 ^ 32)
    (hk : k < n) : ((· + RSDP_ALIGN)^[k] start).toNat = start.toNat + 16 * k := by
  rw [iterate_align, toNat_add_ofNat (by omega)]

/-- The accepted places of the scan are the sound pointers. -/
theorem accepted_eq_rsdpsFrom {start : Addr} {n : ℕ} (hfit : start.toNat + 16 * n ≤ 2 ^ 32) :
    accepted (rsdpValid m) (· + RSDP_ALIGN) BitVec.toNat n start =
      rsdpsFrom m start.toNat n := by
  have haddr : ∀ k < n,
      (· + RSDP_ALIGN)^[k] start = BitVec.ofNat 32 (start.toNat + 16 * k) := fun k hk => by
    rw [← toNat_candidate hfit hk, BitVec.ofNat_toNat, BitVec.setWidth_eq]
  ext a
  constructor
  · rintro ⟨k, hk, rfl, hvalid⟩
    refine ⟨k, hk, toNat_candidate hfit hk, ?_⟩
    rwa [BitVec.ofNat_toNat, BitVec.setWidth_eq, ← rsdpValid_iff]
  · rintro ⟨k, hk, rfl, hvalid⟩
    refine ⟨k, hk, toNat_candidate hfit hk, ?_⟩
    rwa [haddr k hk, rsdpValid_iff]

/-- **One area**: the lowest valid candidate, and `NULL` if there is none. -/
theorem sdpFrom_lowest {start : Addr} {n : ℕ} (hfit : start.toNat + 16 * n ≤ 2 ^ 32)
    (hstart : start ≠ 0) :
    rsdpsFrom m start.toNat n = ∅ ∧ sdpFrom m n start = 0 ∨
      IsLeast (rsdpsFrom m start.toNat n) (sdpFrom m n start).toNat ∧ sdpFrom m n start ≠ 0 := by
  rw [sdpFrom_eq_search, ← accepted_eq_rsdpsFrom hfit]
  cases hsearch : search (rsdpValid m) (· + RSDP_ALIGN) n start with
  | none => exact .inl ⟨(search_eq_none_iff_accepted _).1 hsearch, rfl⟩
  | some a =>
    have hleast := search_isLeast BitVec.toNat (fun j k hjk hk => ?_) hsearch
    · refine .inr ⟨hleast, ?_⟩
      rintro rfl
      obtain ⟨k, hk, hzero, -⟩ := hleast.1
      rw [toNat_candidate hfit hk] at hzero
      have hpos : start.toNat ≠ 0 := fun h => hstart (BitVec.eq_of_toNat_eq h)
      exact hpos (Nat.eq_zero_of_add_eq_zero_right hzero)
    · rw [toNat_candidate hfit (hjk.trans_lt hk), toNat_candidate hfit hk]
      omega

/-- The address of the extended BIOS data area is that of its segment. -/
theorem toNat_ebdaStart (m : Mem) : (ebdaStart m).toNat = 16 * (ebdaWord m).toNat := by
  have hlt := (ebdaWord m).isLt
  show ((ebdaWord m).setWidth 32 <<< 4 : Dword).toNat = _
  rw [BitVec.toNat_shiftLeft, BitVec.toNat_setWidth, Nat.shiftLeft_eq]
  omega

/-- The first area has 64 candidates. -/
theorem sdpBetween_ebda (m : Mem) :
    sdpBetween m (ebdaStart m) (ebdaStart m + EBDA_SIZE) = sdpFrom m 64 (ebdaStart m) := by
  have hstart := toNat_ebdaStart m
  have hlt := (ebdaWord m).isLt
  have hstop : (ebdaStart m + EBDA_SIZE).toNat = (ebdaStart m).toNat + 1024 :=
    @toNat_add_ofNat (ebdaStart m) 1024 (by omega)
  rw [sdpBetween, hstop, Nat.add_sub_cancel_left]

/-- The second one ends with `0xffff0`: the constant is the last byte, and the comparison
is strict. -/
theorem biosRsdps_eq (m : Mem) : biosRsdps m = rsdpsFrom m BIOS_MAIN_START.toNat 8192 := by
  have hstart : BIOS_MAIN_START.toNat = 0xe0000 := rfl
  ext a
  rw [hstart]
  constructor
  · rintro ⟨halign, hlow, hhigh, hvalid⟩
    exact ⟨(a - 0xe0000) / 16, by omega, by omega, hvalid⟩
  · rintro ⟨k, hk, rfl, hvalid⟩
    exact ⟨by omega, by omega, by omega, hvalid⟩

/-- **`locate_sdp` finds the first valid root pointer.**  The lowest one of the first
area, and only if there is none there the lowest one of the BIOS; `NULL` if and only if
neither area has one. -/
theorem locateSdp_lowest {ε : Type} (b : Bus ε) (w : World ε) (hword : ebdaWord w.mem ≠ 0) :
    ∃ p, Yields b locateSdp w p ∧
      ((ebdaRsdps w.mem).Nonempty → IsLeast (ebdaRsdps w.mem) p.toNat) ∧
      (ebdaRsdps w.mem = ∅ → (biosRsdps w.mem).Nonempty → IsLeast (biosRsdps w.mem) p.toNat) ∧
      (p = 0 ↔ ebdaRsdps w.mem = ∅ ∧ biosRsdps w.mem = ∅) := by
  have hstart := toNat_ebdaStart w.mem
  have hlt := (ebdaWord w.mem).isLt
  have hne : ebdaStart w.mem ≠ 0 := by
    intro hzero
    have hnum : 16 * (ebdaWord w.mem).toNat = 0 := hstart.symm.trans (congrArg BitVec.toNat hzero)
    refine hword (BitVec.eq_of_toNat_eq ?_)
    show _ = 0
    omega
  have hebda := @sdpFrom_lowest w.mem (ebdaStart w.mem) 64 (by omega) hne
  have hbios := @sdpFrom_lowest w.mem BIOS_MAIN_START 8192 (by decide) (by decide)
  have hcount : sdpBetween w.mem BIOS_MAIN_START BIOS_MAIN_END =
      sdpFrom w.mem 8192 BIOS_MAIN_START := rfl
  refine ⟨sdpOf w.mem, yields_locateSdp w, ?_⟩
  rw [sdpOf, sdpBetween_ebda, hcount, ebdaRsdps, ← hstart, biosRsdps_eq]
  rcases hebda with ⟨hempty, hzero⟩ | ⟨hleast, hnonzero⟩
  · rw [if_neg (not_not.2 hzero), hempty]
    refine ⟨fun h => absurd h Set.not_nonempty_empty, fun _ hsome => ?_, ?_⟩
    · rcases hbios with ⟨hnone, -⟩ | ⟨hleast, -⟩
      · exact absurd hnone hsome.ne_empty
      · exact hleast
    · rcases hbios with ⟨hnone, hzero'⟩ | ⟨hleast, hnonzero⟩
      · exact iff_of_true hzero' ⟨rfl, hnone⟩
      · exact iff_of_false hnonzero fun h => (Set.nonempty_of_mem hleast.1).ne_empty h.2
  · rw [if_pos hnonzero]
    have hsome := Set.nonempty_of_mem hleast.1
    exact ⟨fun _ => hleast, fun hempty => absurd hempty hsome.ne_empty,
      iff_of_false hnonzero fun h => hsome.ne_empty h.1⟩

/-- With a sound pointer in the extended BIOS data area, that one is found. -/
theorem locateSdp_lowest_broken :
    ∃ p, Yields Bus.silent locateSdp (.boot () emptyIdt brokenRsdt) p ∧
      ((ebdaRsdps brokenRsdt).Nonempty → IsLeast (ebdaRsdps brokenRsdt) p.toNat) ∧
      (ebdaRsdps brokenRsdt = ∅ → (biosRsdps brokenRsdt).Nonempty →
        IsLeast (biosRsdps brokenRsdt) p.toNat) ∧
      (p = 0 ↔ ebdaRsdps brokenRsdt = ∅ ∧ biosRsdps brokenRsdt = ∅) :=
  locateSdp_lowest Bus.silent (.boot () emptyIdt brokenRsdt) (by decide)

/-! ### The search for a table -/

/-- A table with a sound checksum and the signature `signature`. -/
structure SoundTable (m : Mem) (signature : Signature) (t : Addr) : Prop where
  checksum : sumAt m (m.load32 (t + LENGTH)).toNat t % 256 = 0
  signature : Spelled m signature t

/-- The comparison of `matchBytes` holds if and only if all bytes agree. -/
theorem holdsBytes_iff (m : Mem) (a : Addr) (cs : List Byte) :
    holdsBytes m a cs = true ↔ ∀ i (hi : i < cs.length), m (a + BitVec.ofNat 32 i) = cs[i] := by
  induction cs generalizing a with
  | nil => exact iff_of_true rfl fun i hi => absurd hi (Nat.not_lt_zero i)
  | cons c cs ih =>
    rw [holdsBytes, Bool.and_eq_true, beq_iff_eq, ih]
    constructor
    · rintro ⟨hfirst, hrest⟩ i hi
      cases i with
      | zero => rwa [add_ofNat_zero]
      | succ i =>
        rw [← add_one_add]
        exact hrest i (Nat.lt_of_succ_lt_succ hi)
    · intro h
      refine ⟨?_, fun i hi => ?_⟩
      · have hfirst := h 0 (Nat.succ_pos _)
        rwa [add_ofNat_zero] at hfirst
      · rw [add_one_add]
        exact h (i + 1) (Nat.succ_lt_succ hi)

/-- What `validateTable` computes is that the table is sound. -/
theorem tableValid_iff (m : Mem) (signature : Signature) (t : Addr) :
    tableValid m signature t = true ↔ SoundTable m signature t := by
  have hsignature : holdsBytes m t signature.toList = true ↔ Spelled m signature t := by
    rw [holdsBytes_iff]
    constructor
    · intro h i hi
      have hbyte := h i (by rwa [Vector.length_toList])
      rwa [Vector.getElem_toList] at hbyte
    · intro h i hi
      rw [Vector.getElem_toList]
      exact h i _
  rw [tableValid, Bool.and_eq_true, checksumValid_iff, hsignature]
  exact ⟨fun h => ⟨h.1, h.2⟩, fun h => ⟨h.1, h.2⟩⟩

/-- The entries are tested one after the other. -/
theorem firstValid_eq_search (p : Addr → Bool) (m : Mem) (s : AcpiStatics) (n : ℕ) (i : Dword) :
    firstValid p (tablesFrom m s n i) =
      ((search (fun j => p (tableAt m s j)) (· + 1) n i).map (tableAt m s)).getD 0 := by
  induction n generalizing i with
  | zero => rfl
  | succ n ih =>
    have hrest := ih (i + 1)
    unfold firstValid at hrest ⊢
    rw [tablesFrom, List.find?_cons, search]
    cases p (tableAt m s i) with
    | true => rfl
    | false => exact hrest

/-- The loop index counts the entries. -/
theorem iterate_succ_zero (k : ℕ) : (· + 1)^[k] (0 : Dword) = BitVec.ofNat 32 k := by
  induction k with
  | zero => rfl
  | succ k ih =>
    rw [Function.iterate_succ_apply', ih]
    exact (BitVec.ofNat_add k 1).symm

/-- The entry with number `i` of the RSDT at `r`. -/
def rsdtEntry (m : Mem) (r : Addr) (i : ℕ) : Addr :=
  m.load32 (r + SDT_HEADER_SIZE + 4 * BitVec.ofNat 32 i)

/-- The number of entries for which an RSDT has room. -/
def rsdtEntries (m : Mem) (r : Addr) : ℕ := ((m.load32 (r + LENGTH)).toNat - 36) / 4

/-- The number of tables of a root with room for its header. -/
theorem numTables_rsdt {m : Mem} {s : AcpiStatics} (hr : s.rsdt ≠ 0)
    (hlen : 36 ≤ (m.load32 (s.rsdt + LENGTH)).toNat) :
    (numTables m s).toNat = rsdtEntries m s.rsdt := by
  have hlt := (m.load32 (s.rsdt + LENGTH)).isLt
  rw [numTables, if_pos hr, toNat_numEntries, rsdtEntries]
  omega

/-- **`get_sdt` finds the first sound table** with the signature in the RSDT, and `NULL`
only if none of its entries is one: the others are skipped, whatever is wrong with
them. -/
theorem getSdt_first {ε : Type} (b : Bus ε) (w : World ε) (signature : Signature)
    (hr : w.kernel.acpi.rsdt ≠ 0)
    (hlen : 36 ≤ (w.mem.load32 (w.kernel.acpi.rsdt + LENGTH)).toNat) :
    ∃ a, Yields b (getSdt signature) w a ∧
      ((∃ i < rsdtEntries w.mem w.kernel.acpi.rsdt,
          a = rsdtEntry w.mem w.kernel.acpi.rsdt i ∧ SoundTable w.mem signature a ∧
          ∀ j < i, ¬ SoundTable w.mem signature (rsdtEntry w.mem w.kernel.acpi.rsdt j)) ∨
        (∀ i < rsdtEntries w.mem w.kernel.acpi.rsdt,
          ¬ SoundTable w.mem signature (rsdtEntry w.mem w.kernel.acpi.rsdt i)) ∧ a = 0) := by
  have hentry : ∀ i, tableAt w.mem w.kernel.acpi ((· + 1)^[i] 0) =
      rsdtEntry w.mem w.kernel.acpi.rsdt i := fun i => by
    rw [iterate_succ_zero, tableAt, if_pos hr]
    rfl
  have hskip : ∀ i, tableValid w.mem signature (tableAt w.mem w.kernel.acpi ((· + 1)^[i] 0)) =
      false ↔ ¬ SoundTable w.mem signature (rsdtEntry w.mem w.kernel.acpi.rsdt i) := fun i => by
    rw [hentry, ← tableValid_iff, Bool.not_eq_true]
  refine ⟨_, yields_getSdt signature w, ?_⟩
  rw [sdt, tables, firstValid_eq_search, numTables_rsdt hr hlen]
  cases hsearch : search _ _ _ _ with
  | none =>
    refine .inr ⟨fun i hi => ?_, rfl⟩
    exact (hskip i).1 (search_eq_none_iff.1 hsearch i hi)
  | some j =>
    obtain ⟨i, hi, rfl, hvalid, hbefore⟩ := search_eq_some_iff.1 hsearch
    refine .inl ⟨i, hi, hentry i, (tableValid_iff ..).1 hvalid, fun k hk => ?_⟩
    exact (hskip k).1 (hbefore k hk)

/-- Through the first RSDT of `twoRsdts`. -/
theorem getSdt_first_twoRsdts :
    ∃ a, Yields Bus.silent (getSdt FADT_SIGNATURE)
        (withRoots 0x1000 0 (.boot () emptyIdt twoRsdts)) a ∧
      ((∃ i < rsdtEntries twoRsdts 0x1000, a = rsdtEntry twoRsdts 0x1000 i ∧
          SoundTable twoRsdts FADT_SIGNATURE a ∧
          ∀ j < i, ¬ SoundTable twoRsdts FADT_SIGNATURE (rsdtEntry twoRsdts 0x1000 j)) ∨
        (∀ i < rsdtEntries twoRsdts 0x1000,
          ¬ SoundTable twoRsdts FADT_SIGNATURE (rsdtEntry twoRsdts 0x1000 i)) ∧ a = 0) :=
  getSdt_first Bus.silent (withRoots 0x1000 0 (.boot () emptyIdt twoRsdts)) FADT_SIGNATURE
    (show (0x1000 : Addr) ≠ 0 by decide)
    (show 36 ≤ (twoRsdts.load32 (0x1000 + LENGTH)).toNat by decide)

end Acpi
end DrewOS
