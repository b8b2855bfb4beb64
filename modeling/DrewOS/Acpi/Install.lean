/-
# Installing the root table

`rsdt_init` assigns the two root pointers first and checks the tables then, so a
table that it rejects is in use all the same (`atomic_iff`): the calls of a
sequence are atomic only if none of them is rejected.
-/

import DrewOS.Acpi.Walk

namespace DrewOS
namespace Acpi

open ByteMem Effect

/-! ### What `rsdt_init` leaves behind -/

/-- One of the two tables has a bad checksum. -/
def rejected (m : Mem) (r x : Addr) : Bool :=
  r != 0 && !checksumValid m r || x != 0 && !checksumValid m x

/-- The statics with other root pointers. -/
def roots (r x : Addr) (s : AcpiStatics) : AcpiStatics := { s with rsdt := r, xsdt := x }

/-- The statics with the tables found through the root pointers. -/
def located (m : Mem) (s : AcpiStatics) : AcpiStatics :=
  { s with fadt := sdt m s FADT_SIGNATURE, madt := sdt m s MADT_SIGNATURE }

/-- A lookup depends on the root pointers alone. -/
theorem sdt_congr {m : Mem} {s : AcpiStatics} (s' : AcpiStatics) (hr : s.rsdt = s'.rsdt)
    (hx : s.xsdt = s'.xsdt) (signature : Signature) : sdt m s signature = sdt m s' signature := by
  have hat : ∀ i, tableAt m s i = tableAt m s' i := fun i => by rw [tableAt, tableAt, hr, hx]
  have hfrom : ∀ n i, tablesFrom m s n i = tablesFrom m s' n i := by
    intro n
    induction n with
    | zero => exact fun i => rfl
    | succ n ih =>
      intro i
      rw [tablesFrom, tablesFrom, hat, ih]
  have hnum : numTables m s = numTables m s' := by rw [numTables, numTables, hr, hx]
  rw [sdt, sdt, tables, tables, hnum, hfrom]

section Run

variable {ε : Type}

/-- From `w` to `t` the ACPI statics went along `f`; devices, memory and the other
statics are as before. -/
structure Assigned (f : AcpiStatics → AcpiStatics) (w t : World ε) : Prop where
  bus : t.bus = w.bus
  kernel : t.kernel = { w.kernel with acpi := f w.kernel.acpi }
  mem : t.mem = w.mem

/-- The ACPI statics behind an assignment. -/
theorem Assigned.acpi {f : AcpiStatics → AcpiStatics} {w t : World ε} (h : Assigned f w t) :
    t.kernel.acpi = f w.kernel.acpi := by rw [h.kernel]

/-- One assignment after the other. -/
theorem Assigned.trans {f g : AcpiStatics → AcpiStatics} {w t u : World ε} (h : Assigned f w t)
    (h' : Assigned g t u) : Assigned (g ∘ f) w u :=
  ⟨h'.bus.trans h.bus, by rw [h'.kernel, h.kernel]; rfl, h'.mem.trans h.mem⟩

/-- Scanning assigns nothing. -/
theorem Scanned.assigned {w t : World ε} (h : Scanned w t) : Assigned id w t :=
  ⟨h.bus, h.kernel, h.mem⟩

variable {b : Bus ε}

/-- A root is rejected if it is given and its checksum is wrong. -/
theorem yields_rejects (table : Addr) (w : World ε) :
    Yields b (rejects table) w (table != 0 && !checksumValid w.mem table) := by
  unfold rejects
  by_cases h : table = 0
  · rw [if_neg (not_not.2 h), bne_eq_false_iff_eq.2 h, Bool.false_and]
    exact yields_ret _ _
  · rw [if_pos h, bne_iff_ne.2 h, Bool.true_and]
    exact (yields_validateChecksum table w).bind fun t _ => yields_ret _ _

/-- Look a table up, assign its address, and report when there is none. -/
theorem run_locate (signature : Signature) (set : Addr → AcpiStatics → AcpiStatics)
    (text : String) (w : World ε) :
    ∃ t, (getSdt signature >>= fun a => modifyAcpi (set a) >>= fun _ =>
        onlyIf (a = 0) (println text [])).run (machine b) w = (some (), t) ∧
      Assigned (set (sdt w.mem w.kernel.acpi signature)) w t := by
  obtain ⟨t, hrun, ht⟩ := yields_getSdt (b := b) signature w
  rw [Prog.run_bind_of_some _ hrun]
  have hset : Assigned (set (sdt w.mem w.kernel.acpi signature)) w
      { t with kernel :=
        { t.kernel with acpi := set (sdt w.mem w.kernel.acpi signature) t.kernel.acpi } } :=
    ht.assigned.trans ⟨rfl, rfl, rfl⟩
  by_cases h : sdt w.mem w.kernel.acpi signature = 0
  · rw [onlyIf, if_pos h]
    exact ⟨_, rfl, hset.bus, hset.kernel, hset.mem⟩
  · rw [onlyIf, if_neg h]
    exact ⟨_, rfl, hset⟩

/-- `fadt_init(); madt_init();` -/
theorem run_located (w : World ε) :
    ∃ t, (fadtInit >>= fun _ => madtInit).run (machine b) w = (some (), t) ∧
      Assigned (located w.mem) w t := by
  obtain ⟨t, hrun, ht⟩ := run_locate (b := b) FADT_SIGNATURE
    (fun a s => { s with fadt := a }) "Failed to locate FADT" w
  obtain ⟨u, hrun', hu⟩ := run_locate (b := b) MADT_SIGNATURE
    (fun a s => { s with madt := a }) "Failed to locate MADT" t
  refine ⟨u, (Prog.run_bind_of_some _ hrun).trans hrun', ?_⟩
  have hmadt : sdt t.mem t.kernel.acpi MADT_SIGNATURE = sdt w.mem w.kernel.acpi MADT_SIGNATURE := by
    rw [ht.mem, ht.acpi]
    exact sdt_congr w.kernel.acpi (by rfl) (by rfl) _
  rw [hmadt] at hu
  exact ⟨(ht.trans hu).bus, (ht.trans hu).kernel, (ht.trans hu).mem⟩

/-- **The statics after `rsdt_init`**: the root pointers are assigned in any case. -/
theorem run_rsdtInit (r x : Addr) (w : World ε) :
    ∃ t, (rsdtInit r x).run (machine b) w = (some (), t) ∧
      Assigned (fun s => if rejected w.mem r x then roots r x s
        else located w.mem (roots r x s)) w t := by
  let w' : World ε := { w with kernel := { w.kernel with acpi := roots r x w.kernel.acpi } }
  have hroots : Assigned (roots r x) w w' := ⟨rfl, rfl, rfl⟩
  have hmodify : (modifyAcpi fun a => { a with rsdt := r, xsdt := x }).run (machine b) w =
      (some (), w') := rfl
  obtain ⟨t, hrun, ht⟩ := yields_rejects (b := b) r w'
  obtain ⟨u, hrun', hu⟩ := yields_rejects (b := b) x t
  have hu' : Assigned (roots r x) w u := (hroots.trans ht.assigned).trans hu.assigned
  unfold rsdtInit
  rw [Prog.run_bind_of_some _ hmodify, Prog.run_bind_of_some _ hrun]
  show ∃ v, (if (r != 0 && !checksumValid w.mem r) = true then _ else _ : Kern Unit).run _ _ = _ ∧ _
  by_cases hr : (r != 0 && !checksumValid w.mem r) = true
  · have hrej : rejected w.mem r x = true := by rw [rejected, hr, Bool.true_or]
    rw [if_pos hr, hrej]
    have ht' : Assigned (roots r x) w t := hroots.trans ht.assigned
    exact ⟨_, rfl, ht'.bus, ht'.kernel, ht'.mem⟩
  · rw [if_neg hr, Prog.run_bind_of_some _ hrun', ht.mem]
    by_cases hx : (x != 0 && !checksumValid w.mem x) = true
    · have hrej : rejected w.mem r x = true := by rw [rejected, hx, Bool.or_true]
      have hx' : (x != 0 && !checksumValid w'.mem x) = true := hx
      rw [if_pos hx', hrej]
      exact ⟨_, rfl, hu'.bus, hu'.kernel, hu'.mem⟩
    · have hrej : rejected w.mem r x = false := by
        rw [rejected, Bool.eq_false_of_not_eq_true hr, Bool.eq_false_of_not_eq_true hx]
        rfl
      have hx' : ¬ (x != 0 && !checksumValid w'.mem x) = true := hx
      obtain ⟨v, hrun'', hv⟩ := run_located (b := b) u
      rw [if_neg hx', hrej]
      rw [hu'.mem] at hv
      have hv' := hu'.trans hv
      exact ⟨v, hrun'', hv'.bus, hv'.kernel, hv'.mem⟩

end Run

/-! ### Sequences of calls -/

/-- A call of `rsdt_init` or of `get_sdt`. -/
inductive RootCall where
  | init (r x : Addr)
  | get (signature : Signature)

/-- The code of a call. -/
def RootCall.code : RootCall → Kern Unit
  | .init r x => rsdtInit r x
  | .get signature => getSdt signature >>= fun _ => .ret ()

/-- The call rejects its tables. -/
def RootCall.rejects (m : Mem) : RootCall → Bool
  | .init r x => rejected m r x
  | .get _ => false

/-- The call is one of `rsdt_init` that accepts its tables. -/
def RootCall.accepts (m : Mem) : RootCall → Bool
  | .init r x => !rejected m r x
  | .get _ => false

/-- The table that `get_sdt` walks. -/
def rootTable (s : AcpiStatics) : Addr := if s.rsdt ≠ 0 then s.rsdt else s.xsdt

section Calls

variable {ε : Type} (b : Bus ε)

/-- The state after a call. -/
def runRootCall (w : World ε) (c : RootCall) : World ε := (c.code.run (machine b) w).2

/-- The state after a sequence of calls. -/
def runRootCalls (cs : List RootCall) (w : World ε) : World ε := cs.foldl (runRootCall b) w

/-- The call `rsdt_init(r, x)` has made no difference between `w` and `t`. -/
structure Unaffected (r x : Addr) (w t : World ε) : Prop where
  rsdt : t.kernel.acpi.rsdt = w.kernel.acpi.rsdt
  xsdt : t.kernel.acpi.xsdt = w.kernel.acpi.xsdt
  results : ∀ signature v, Yields b (getSdt signature) w v → Yields b (getSdt signature) t v
  unwalked : ∀ a, a = r ∨ a = x → a ≠ 0 → checksumValid w.mem a = false →
    rootTable t.kernel.acpi ≠ a

/-- Every call of the sequence that rejects its tables makes no difference, until
`rsdt_init` accepts other tables. -/
def Atomic (cs : List RootCall) (w : World ε) : Prop :=
  ∀ pre r x mid post, cs = pre ++ .init r x :: mid ++ post → rejected w.mem r x = true →
    (∀ c ∈ mid, c.accepts w.mem = false) →
    Unaffected b r x (runRootCalls b pre w) (runRootCalls b (pre ++ .init r x :: mid) w)

variable {b}

/-- One call more is made behind the others. -/
theorem runRootCalls_concat (cs : List RootCall) (c : RootCall) (w : World ε) :
    runRootCalls b (cs ++ [c]) w = runRootCall b (runRootCalls b cs w) c :=
  List.foldl_append ..

/-- `rsdt_init` assigns the root pointers. -/
theorem assigned_init (r x : Addr) (w : World ε) :
    Assigned (fun s => if rejected w.mem r x then roots r x s else located w.mem (roots r x s)) w
      (runRootCall b w (.init r x)) := by
  obtain ⟨t, hrun, ht⟩ := run_rsdtInit (b := b) r x w
  rw [runRootCall, RootCall.code, hrun]
  exact ht

/-- Behind a call with two addresses, these are the roots. -/
theorem roots_init (r x : Addr) (w : World ε) :
    (runRootCall b w (.init r x)).kernel.acpi.rsdt = r ∧
      (runRootCall b w (.init r x)).kernel.acpi.xsdt = x := by
  rw [(assigned_init r x w).acpi]
  split_ifs
  · exact ⟨rfl, rfl⟩
  · exact ⟨rfl, rfl⟩

/-- A lookup right after `rsdt_init`. -/
theorem yields_getSdt_init (r x : Addr) (signature : Signature) (w : World ε) :
    Yields b (getSdt signature) (runRootCall b w (.init r x))
      (sdt w.mem ⟨0, 0, r, x, 0, 0⟩ signature) := by
  have hsdt := yields_getSdt (b := b) signature (runRootCall b w (.init r x))
  obtain ⟨hr, hx⟩ := roots_init (b := b) r x w
  rw [sdt_congr ⟨0, 0, r, x, 0, 0⟩ hr hx, (assigned_init r x w).mem] at hsdt
  exact hsdt

/-- `get_sdt` keeps everything. -/
theorem scanned_get (signature : Signature) (w : World ε) :
    Scanned w (runRootCall b w (.get signature)) := by
  obtain ⟨t, hrun, ht⟩ := yields_getSdt (b := b) signature w
  rw [runRootCall, RootCall.code, Prog.run_bind_of_some _ hrun]
  exact ht

/-- A call does not write to memory. -/
theorem runRootCall_mem (c : RootCall) (w : World ε) : (runRootCall b w c).mem = w.mem := by
  cases c with
  | init r x => exact (assigned_init r x w).mem
  | get signature => exact (scanned_get signature w).mem

/-- The calls do not write to memory. -/
theorem runRootCalls_mem (cs : List RootCall) (w : World ε) :
    (runRootCalls b cs w).mem = w.mem := by
  induction cs generalizing w with
  | nil => rfl
  | cons c cs ih => exact (ih _).trans (runRootCall_mem c w)

/-- Where sound tables are installed, a call that rejects its tables makes a
difference: it installs them. -/
theorem not_unaffected_of_rejected {r x : Addr} {w : World ε}
    (hw : rejected w.mem w.kernel.acpi.rsdt w.kernel.acpi.xsdt = false)
    (h : rejected w.mem r x = true) : ¬ Unaffected b r x w (runRootCall b w (.init r x)) := by
  intro hu
  obtain ⟨hr, hx⟩ := roots_init (b := b) r x w
  rw [← hu.rsdt.symm.trans hr, ← hu.xsdt.symm.trans hx, hw] at h
  exact Bool.noConfusion h

/-- In an atomic sequence that starts with sound tables, no call is rejected. -/
theorem accepted_of_atomic {cs : List RootCall} {w : World ε} (h : Atomic b cs w)
    (hw : rejected w.mem w.kernel.acpi.rsdt w.kernel.acpi.xsdt = false) (pre post : List RootCall)
    (hpre : cs = pre ++ post) :
    rejected w.mem (runRootCalls b pre w).kernel.acpi.rsdt
        (runRootCalls b pre w).kernel.acpi.xsdt = false ∧
      ∀ c ∈ pre, c.rejects w.mem = false := by
  -- by induction on the number of calls; a rejected one would be the first
  induction pre using List.reverseRecOn generalizing post with
  | nil => exact ⟨hw, fun c hc => absurd hc List.not_mem_nil⟩
  | append_singleton pre c ih =>
    obtain ⟨hroots, haccepted⟩ := ih (c :: post) (by rw [hpre, List.append_assoc]; rfl)
    rw [runRootCalls_concat]
    have hmem := runRootCalls_mem (b := b) pre w
    have hcons : c.rejects w.mem = false → ∀ c' ∈ pre ++ [c], c'.rejects w.mem = false :=
      fun hc c' hc' => (List.mem_append.1 hc').elim (haccepted c') fun h =>
        (List.mem_singleton.1 h) ▸ hc
    cases c with
    | get signature =>
      rw [(scanned_get signature _).kernel]
      exact ⟨hroots, hcons rfl⟩
    | init r x =>
      have hok : rejected w.mem r x = false := by
        by_contra hrej
        have hrej := Bool.eq_true_of_not_eq_false hrej
        have hu := h pre r x [] post hpre hrej fun c hc => absurd hc List.not_mem_nil
        rw [runRootCalls_concat] at hu
        rw [← hmem] at hroots hrej
        exact not_unaffected_of_rejected hroots hrej hu
      obtain ⟨hr, hx⟩ := roots_init (b := b) r x (runRootCalls b pre w)
      rw [hr, hx]
      exact ⟨hok, hcons hok⟩

end Calls

/-- **Rejected tables are installed.**  A sequence of calls after the start keeps
to the tables in use whenever `rsdt_init` rejects others, if and only if it never
does. -/
theorem atomic_iff {ε : Type} (b : Bus ε) (e : ε) (t : Idt) (m : Mem) (cs : List RootCall) :
    Atomic b cs (.boot e t m) ↔ ∀ c ∈ cs, c.rejects m = false := by
  constructor
  · intro h
    exact (accepted_of_atomic h rfl cs [] (List.append_nil cs).symm).2
  · intro h pre r x mid post hcs hrej
    have hinit := h (.init r x) (by rw [hcs]; simp)
    exact absurd (hinit.symm.trans hrej) Bool.false_ne_true

/-! ### A rejected table that is walked -/

/-- The memory that holds the given bytes at the given addresses, and zeros
everywhere else. -/
def image (blocks : List (Addr × List Byte)) : Mem := fun a =>
  match blocks.find? fun block => (a - block.1).toNat < block.2.length with
  | some block => block.2.getD (a - block.1).toNat 0
  | none => 0

/-- An RSDT at `0x1000` with one table, a sound FADT at `0x2000`, and an RSDT at
`0x3000` with a wrong checksum and no tables. -/
def twoRsdts : Mem := image
  [(0x1000, [0, 0, 0, 0, 40, 0, 0, 0, 0, 184] ++ List.replicate 27 0 ++ [0x20]),
    (0x2000, [0x46, 0x41, 0x43, 0x50, 36, 0, 0, 0, 0, 0xc2]),
    (0x3000, [0, 0, 0, 0, 36])]

/-- The second RSDT is rejected, and the FADT is not found any more. -/
theorem not_atomic_twoRsdts : ¬ Atomic Bus.silent
    [.init 0x1000 0, .init 0x3000 0, .get FADT_SIGNATURE] (.boot () emptyIdt twoRsdts) := by
  intro h
  have hu := h [.init 0x1000 0] 0x3000 0 [] [.get FADT_SIGNATURE] rfl (by decide) (by simp)
  have hbefore := yields_getSdt_init (b := Bus.silent) 0x1000 0 FADT_SIGNATURE
    (.boot () emptyIdt twoRsdts)
  have hafter := yields_getSdt_init (b := Bus.silent) 0x3000 0 FADT_SIGNATURE
    (runRootCall Bus.silent (.boot () emptyIdt twoRsdts) (.init 0x1000 0))
  rw [runRootCall_mem] at hafter
  have hfound : sdt twoRsdts ⟨0, 0, 0x1000, 0, 0, 0⟩ FADT_SIGNATURE = 0x2000 := by decide
  have hlost : sdt twoRsdts ⟨0, 0, 0x3000, 0, 0, 0⟩ FADT_SIGNATURE = 0 := by decide
  have heq : sdt twoRsdts ⟨0, 0, 0x1000, 0, 0, 0⟩ FADT_SIGNATURE =
      sdt twoRsdts ⟨0, 0, 0x3000, 0, 0, 0⟩ FADT_SIGNATURE :=
    (hu.results _ _ hbefore).unique hafter
  rw [hfound, hlost] at heq
  exact absurd heq (by decide)

end Acpi
end DrewOS
