/-
# What a piece of kernel code can do

Much of the kernel's code matters to a theorem only by what it leaves alone: the
ports it does not write, the functions it does not call, the statics it does
not assign.  `Stays E F p` says so of `p` once and for all, whatever the devices
answer: all its events satisfy `E`, and every assignment takes the statics along
`F`.  `sat_stays` turns it into a statement about runs.
-/

import DrewOS.Kernel.Pic

namespace DrewOS

open ByteMem Effect

/-- The operation writes only events in `E` and assigns along `F`. -/
def Op.Within (E : Event → Prop) (F : Kernel → Kernel → Prop) : Op → Prop
  | .readByte p => ∀ r, E (.inb p r)
  | .readWord p => ∀ r, E (.inw p r)
  | .writeByte p d => E (.outb p d)
  | .load a => E (.load a)
  | .print m => E (.print m)
  | .clrscr => E .clrscr
  | .get => True
  | .modify f => ∀ k, F k (f k)
  | .lidt => E .lidt
  | .sti => E .sti
  | .int v => E (.int v)
  | .invoke h => E (.invoke h)
  | .enter f => E (.enter f)
  | .leave f r => E (.leave f r)

/-- The code writes only events in `E` and assigns along `F`. -/
def Stays {α : Type} (E : Event → Prop) (F : Kernel → Kernel → Prop) (p : Kern α) : Prop :=
  Prog.Always (S := io) (Op.Within E F) p

/-- From `s` to `t`, events in `E` were written and the statics went along `F`. -/
structure Extends {ε : Type} (E : Event → Prop) (F : Kernel → Kernel → Prop) (s t : World ε) :
    Prop where
  log : ∃ l, t.log = s.log ++ l ∧ ∀ e ∈ l, E e
  kernel : F s.kernel t.kernel

/-- No software interrupt. -/
def Unraised : Event → Prop
  | .int _ => False
  | _ => True

section Stays

variable {α β : Type} {E E' : Event → Prop} {F F' : Kernel → Kernel → Prop}

theorem stays_ret (a : α) : Stays E F (.ret a) := trivial

theorem stays_pure (a : α) : Stays E F (pure a) := trivial

theorem stays_cut : Stays E F (.cut : Kern α) := trivial

/-- What each part stays within, the sequence does. -/
theorem Stays.bind {p : Kern α} {f : α → Kern β} (hp : Stays E F p)
    (hf : ∀ a, Stays E F (f a)) : Stays E F (p >>= f) :=
  Prog.Always.bind hp hf

/-- What each branch stays within, the test does. -/
theorem stays_ite (c : Prop) [Decidable c] {p q : Kern α} (hp : Stays E F p) (hq : Stays E F q) :
    Stays E F (if c then p else q) := by
  split_ifs
  · exact hp
  · exact hq

/-- What the body stays within where it is run, the test does. -/
theorem stays_onlyIf (c : Prop) [Decidable c] {p : Kern Unit} (hp : c → Stays E F p) :
    Stays E F (onlyIf c p) := by
  unfold onlyIf
  split_ifs with h
  · exact hp h
  · exact stays_ret ()

theorem stays_readByte {p : Word} (h : ∀ r, E (.inb p r)) : Stays E F (readByte p) :=
  ⟨h, fun _ => trivial⟩

theorem stays_readWord {p : Word} (h : ∀ r, E (.inw p r)) : Stays E F (readWord p) :=
  ⟨h, fun _ => trivial⟩

theorem stays_writeByte {p : Word} {d : Byte} (h : E (.outb p d)) : Stays E F (writeByte p d) :=
  ⟨h, fun _ => trivial⟩

theorem stays_loadByte {a : Addr} (h : E (.load a)) : Stays E F (loadByte a) :=
  ⟨h, fun _ => trivial⟩

theorem stays_printMessage {m : Message} (h : E (.print m)) : Stays E F (printMessage m) :=
  ⟨h, fun _ => trivial⟩

theorem stays_getKernel : Stays E F getKernel := ⟨trivial, fun _ => trivial⟩

/-- An assignment that is along `F`. -/
theorem stays_modifyKernel {f : Kernel → Kernel} (h : ∀ k, F k (f k)) :
    Stays E F (modifyKernel f) :=
  ⟨h, fun _ => trivial⟩

/-- An interrupt that is in `E`. -/
theorem stays_int {v : Byte} (h : E (.int v)) : Stays E F (int v) := ⟨h, fun _ => trivial⟩

/-- A procedure: the two marks, and the body between them. -/
theorem stays_procedure {f : Fn} {p : Kern Unit} (henter : E (.enter f))
    (hleave : E (.leave f none)) (hp : Stays E F p) : Stays E F (procedure f p) :=
  ⟨henter, fun _ => hp.bind fun _ => ⟨hleave, fun _ => trivial⟩⟩

/-- A function: the two marks, with its result in the second one, and the body. -/
theorem stays_function {f : Fn} {p : Kern Byte} (henter : E (.enter f))
    (hleave : ∀ r, E (.leave f (some r))) (hp : Stays E F p) : Stays E F (function f p) :=
  ⟨henter, fun _ => hp.bind fun r => ⟨hleave r, fun _ => trivial⟩⟩

/-- `irq_clear_mask` reads and writes the mask of the line's chip. -/
theorem stays_irqClearMask {l : Byte} (henter : E (.enter (.irqClearMask l)))
    (hleave : E (.leave (.irqClearMask l) none)) (hin : ∀ r, E (.inb (maskPort l).1 r))
    (hout : ∀ d, E (.outb (maskPort l).1 d)) : Stays E F (irqClearMask l) :=
  stays_procedure henter hleave ((stays_readByte hin).bind fun _ => stays_writeByte (hout _))

/-- What an operation stays within can be enlarged. -/
theorem Op.Within.mono (hE : ∀ e, E e → E' e) (hF : ∀ k k', F k k' → F' k k') {o : Op}
    (ho : o.Within E F) : o.Within E' F' := by
  cases o with
  | readByte p => exact fun r => hE _ (ho r)
  | readWord p => exact fun r => hE _ (ho r)
  | get => trivial
  | modify f => exact fun k => hF _ _ (ho k)
  | _ => exact hE _ ho

/-- What is within `E` and `F` is within anything larger. -/
theorem Stays.mono (hE : ∀ e, E e → E' e) (hF : ∀ k k', F k k' → F' k k') {p : Kern α}
    (h : Stays E F p) : Stays E' F' p :=
  Prog.Always.mono (fun _ ho => ho.mono hE hF) h

variable {ε : Type}

theorem Extends.refl (hF : ∀ k, F k k) (s : World ε) : Extends E F s s :=
  ⟨⟨[], (List.append_nil _).symm, fun _ h => absurd h List.not_mem_nil⟩, hF _⟩

/-- One stretch of a run after the other. -/
theorem Extends.trans (hF : ∀ k k' k'', F k k' → F k' k'' → F k k'') {s t u : World ε}
    (h : Extends E F s t) (h' : Extends E F t u) : Extends E F s u := by
  obtain ⟨⟨l, hl, hE⟩, hk⟩ := h
  obtain ⟨⟨l', hl', hE'⟩, hk'⟩ := h'
  refine ⟨⟨l ++ l', by rw [hl', hl, List.append_assoc], fun e he => ?_⟩, hF _ _ _ hk hk'⟩
  exact (List.mem_append.1 he).elim (hE e) (hE' e)

/-- One operation. -/
theorem extends_step (hF : ∀ k, F k k) (b : Bus ε) {o : Op} (ho : o.Within E F) (s : World ε) :
    Extends E F s (machine b o s).2 := by
  have hone : ∀ {e : Event}, E e → ∃ l, s.log ++ [e] = s.log ++ l ∧ ∀ e ∈ l, E e :=
    fun {e} he => ⟨[e], rfl, fun e' h => List.mem_singleton.1 h ▸ he⟩
  cases o with
  | readByte p => exact ⟨hone (ho _), hF _⟩
  | readWord p => exact ⟨hone (ho _), hF _⟩
  | get => exact .refl hF s
  | modify f => exact ⟨⟨[], (List.append_nil _).symm, fun _ h => absurd h List.not_mem_nil⟩, ho _⟩
  | _ => exact ⟨hone ho, hF _⟩

/-- **A run of code that stays within `E` and `F`.** -/
theorem sat_stays (hrefl : ∀ k, F k k) (htrans : ∀ k k' k'', F k k' → F k' k'' → F k k'')
    (b : Bus ε) {p : Kern α} (h : Stays E F p) (s : World ε) :
    Prog.Sat (machine b) (Extends E F s) (fun _ t => Extends E F s t) p s :=
  Prog.sat_of_always (.refl hrefl) (fun _ _ _ => .trans htrans)
    (fun _ t ho => extends_step hrefl b ho t) h s

/-- A run of code that assigns no static. -/
theorem sat_stays_same (b : Bus ε) {p : Kern α} (h : Stays E (fun k k' => k' = k) p) (s : World ε) :
    Prog.Sat (machine b) (Extends E (fun k k' => k' = k) s)
      (fun _ t => Extends E (fun k k' => k' = k) s t) p s :=
  sat_stays (F := fun k k' => k' = k) (fun _ => rfl) (fun _ _ _ h h' => h'.trans h) b h s

/-- A call, by its body between the two marks. -/
theorem sat_procedure (b : Bus ε) {I : World ε → Prop} {Q : Unit → World ε → Prop} (f : Fn)
    (p : Kern Unit) (s : World ε) :
    Prog.Sat (machine b) I Q (procedure f p) s ↔ I (s.say (.enter f)) ∧
      Prog.Sat (machine b) I (fun _ t => I (t.say (.leave f none)) ∧ Q () (t.say (.leave f none))) p
        (s.say (.enter f)) :=
  and_congr_right fun _ => Prog.sat_bind p (fun _ => leave f none) (s.say (.enter f))

/-- A call of a function, by its body between the two marks. -/
theorem sat_function (b : Bus ε) {I : World ε → Prop} {Q : Byte → World ε → Prop} (f : Fn)
    (p : Kern Byte) (s : World ε) :
    Prog.Sat (machine b) I Q (function f p) s ↔ I (s.say (.enter f)) ∧
      Prog.Sat (machine b) I
        (fun r t => I (t.say (.leave f (some r))) ∧ Q r (t.say (.leave f (some r)))) p
        (s.say (.enter f)) :=
  and_congr_right fun _ =>
    Prog.sat_bind p (fun r => leave f (some r) >>= fun _ => .ret r) (s.say (.enter f))

/-- Reading the statics, the continuation is the one for their values. -/
theorem sat_getKernel (b : Bus ε) {I : World ε → Prop} {Q : α → World ε → Prop}
    (K : Kernel → Kern α) (s : World ε) :
    Prog.Sat (machine b) I Q (getKernel >>= K) s ↔ I s ∧ Prog.Sat (machine b) I Q (K s.kernel) s :=
  Iff.rfl

/-- **The log of any code only grows.** -/
theorem sat_grows (b : Bus ε) (p : Kern α) (s : World ε) :
    Prog.Sat (machine b) (fun t => s.log <+: t.log) (fun _ t => s.log <+: t.log) p s :=
  Prog.sat_of_always (J := fun _ => True) (R := fun s t : World ε => s.log <+: t.log)
    (fun _ => List.prefix_rfl) (fun _ _ _ => List.IsPrefix.trans) (fun o t _ => log_grows b o t)
    (Prog.always_true p) s

/-- What such code asks for, and where. -/
theorem asked_stays (hrefl : ∀ k, F k k) (htrans : ∀ k k' k'', F k k' → F k' k'' → F k k'')
    (b : Bus ε) {p : Kern α} (h : Stays E F p) (s : World ε) :
    ∀ x ∈ p.asked (machine b) s, x.1.Within E F ∧ Extends E F s x.2 :=
  Prog.asked_of_always (.refl hrefl) (fun _ _ _ => .trans htrans)
    (fun _ t ho => extends_step hrefl b ho t) h s

/-- Code that asks for nothing `D` forbids, and that leaves alone what `I` needs. -/
theorem exact_stays (hrefl : ∀ k, F k k) (htrans : ∀ k k' k'', F k k' → F k' k'' → F k k'')
    {b : Bus ε} {p : Kern α} (h : Stays E F p) {D : Op → World ε → Prop} {I : World ε → Prop}
    {s : World ε} (hD : ∀ o t, o.Within E F → Extends E F s t → D o t)
    (hI : ∀ t, Extends E F s t → I t) :
    Prog.Exact (machine b) D I (fun _ t => Extends E F s t) p s :=
  Prog.exact_of_always (.refl hrefl) (fun _ _ _ => .trans htrans)
    (fun _ t ho => extends_step hrefl b ho t) h hD hI

/-! ### Exact conditions -/

variable {b : Bus ε} {D : Op → World ε → Prop} {I : World ε → Prop} {s : World ε}

/-- Reading the statics. -/
theorem exact_getKernel {K : Kernel → Kern α} {Q : α → World ε → Prop} (hD : D .get s) (hI : I s)
    (h : Prog.Exact (machine b) D I Q (K s.kernel) s) :
    Prog.Exact (machine b) D I Q (getKernel >>= K) s :=
  Prog.Exact.bind (Prog.exact_ask hD hI (Prog.exact_ret h))

/-- A call, by its body between the two marks. -/
theorem exact_procedure {f : Fn} {p : Kern Unit} {Q : Unit → World ε → Prop}
    (hD : D (.enter f) s) (hI : I (s.say (.enter f)))
    (h : Prog.Exact (machine b) D I (fun _ t => D (.leave f none) t ∧
      I (t.say (.leave f none)) ∧ Q () (t.say (.leave f none))) p (s.say (.enter f))) :
    Prog.Exact (machine b) D I Q (procedure f p) s := by
  have hbody : Prog.Exact (machine b) D I Q (p >>= fun _ => leave f none) (s.say (.enter f)) := by
    refine Prog.Exact.bind (h.post fun _ t ht => ?_)
    obtain ⟨hleave, hlast, hq⟩ := ht
    exact Prog.exact_ask hleave hlast (Prog.exact_ret (Q := Q) hq)
  exact Prog.exact_ask hD hI hbody

end Stays

end DrewOS
