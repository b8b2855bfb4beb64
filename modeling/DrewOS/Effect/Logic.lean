/-
# Properties of every point of a run

`Sat m I Q p s` says of the run of `p` from the state `s`: the invariant `I`
holds after every operation, and `Q` holds of the result and the last state if
the run returns.  It is a fold over the program, so it splits along the program
text (`sat_bind`, `sat_ite`), and it says the same as the list of states the
run goes through (`sat_iff`).

`Always J p` is for the parts of a program that only do harmless things: every
operation `p` can ask for, whatever the answers so far, satisfies `J`.  Harmless
operations keep what they keep (`sat_of_always`), so a proof need not follow
such a part step by step.

`Safe m D Q p s` is about the states before the operations: each is asked where `D`
allows it.
-/

import DrewOS.Effect.Prog

namespace Effect
namespace Prog

variable {S : Interface} {σ α β : Type} (m : Machine S σ)

/-- `I` after every operation of the run from `s`, and `Q` where it returns. -/
def Sat (I : σ → Prop) (Q : α → σ → Prop) : Prog S α → σ → Prop
  | .ret a, s => Q a s
  | .cut, _ => True
  | .ask o k, s => I (m o s).2 ∧ (k (m o s).1).Sat I Q (m o s).2

variable {m} {I I' : σ → Prop} {Q Q' : α → σ → Prop}

@[simp] theorem sat_ret (a : α) (s : σ) : Sat m I Q (.ret a : Prog S α) s ↔ Q a s := Iff.rfl

/-- Code that has run out of fuel promises nothing. -/
@[simp] theorem sat_cut (s : σ) : Sat m I Q (.cut : Prog S α) s ↔ True := Iff.rfl

/-- One operation: the state behind it keeps the invariant, and the continuation is right
from there. -/
@[simp] theorem sat_ask (o : S.Op) (k : S.Answer o → Prog S α) (s : σ) :
    Sat m I Q (.ask o k) s ↔ I (m o s).2 ∧ Sat m I Q (k (m o s).1) (m o s).2 := Iff.rfl

/-- **The sequence rule.**  The second part starts where the first returned. -/
theorem sat_bind (p : Prog S α) (f : α → Prog S β) {Q : β → σ → Prop} (s : σ) :
    Sat m I Q (p >>= f) s ↔ Sat m I (fun a t => Sat m I Q (f a) t) p s := by
  induction p generalizing s with
  | ret a => rfl
  | cut => rfl
  | ask o k ih => exact and_congr_right fun _ => ih _ _

/-- A test is right if the branch that is taken is. -/
theorem sat_ite (c : Prop) [Decidable c] (p q : Prog S α) (s : σ) :
    Sat m I Q (if c then p else q) s ↔ (c → Sat m I Q p s) ∧ (¬ c → Sat m I Q q s) := by
  by_cases h : c <;> simp [h]

/-- **The consequence rule.** -/
theorem Sat.mono (hI : ∀ t, I t → I' t) (hQ : ∀ a t, Q a t → Q' a t) {p : Prog S α} {s : σ}
    (h : Sat m I Q p s) : Sat m I' Q' p s := by
  induction p generalizing s with
  | ret a => exact hQ a s h
  | cut => trivial
  | ask o k ih => exact ⟨hI _ h.1, ih _ h.2⟩

/-- The postcondition can be weakened. -/
theorem Sat.post (hQ : ∀ a t, Q a t → Q' a t) {p : Prog S α} {s : σ} (h : Sat m I Q p s) :
    Sat m I Q' p s :=
  h.mono (fun _ => id) hQ

/-- Two things that hold of a run hold together. -/
theorem Sat.and {p : Prog S α} {s : σ} (h : Sat m I Q p s) (h' : Sat m I' Q' p s) :
    Sat m (fun t => I t ∧ I' t) (fun a t => Q a t ∧ Q' a t) p s := by
  induction p generalizing s with
  | ret a => exact ⟨h, h'⟩
  | cut => trivial
  | ask o k ih => exact ⟨⟨h.1, h'.1⟩, ih _ h.2 h'.2⟩

/-- **`Sat` is about the states of the run.** -/
theorem sat_iff (p : Prog S α) (s : σ) :
    Sat m I Q p s ↔
      (∀ t ∈ p.states m s, I t) ∧ ∀ a t, p.run m s = (some a, t) → Q a t := by
  induction p generalizing s with
  | ret a => simp
  | cut => simp
  | ask o k ih => simp [ih, and_assoc]

/-- The invariant holds at every point of the run. -/
theorem Sat.states {p : Prog S α} {s : σ} (h : Sat m I Q p s) : ∀ t ∈ p.states m s, I t :=
  ((sat_iff p s).1 h).1

/-- The postcondition holds of every result. -/
theorem Sat.run {p : Prog S α} {s t : σ} {a : α} (h : Sat m I Q p s)
    (hr : p.run m s = (some a, t)) : Q a t :=
  ((sat_iff p s).1 h).2 a t hr

/-- Every operation `p` can ask for, whatever it was answered before, satisfies `J`. -/
def Always (J : S.Op → Prop) : Prog S α → Prop
  | .ret _ => True
  | .cut => True
  | .ask o k => J o ∧ ∀ r, (k r).Always J

variable {J J' : S.Op → Prop}

/-- Sequencing, where every continuation is good. -/
theorem Always.bind {p : Prog S α} {f : α → Prog S β} (hp : Always J p)
    (hf : ∀ a, Always J (f a)) : Always J (p >>= f) := by
  induction p with
  | ret a => exact hf a
  | cut => trivial
  | ask o k ih => exact ⟨hp.1, fun r => ih r (hp.2 r)⟩

/-- The property can be weakened. -/
theorem Always.mono (h : ∀ o, J o → J' o) {p : Prog S α} (hp : Always J p) : Always J' p := by
  induction p with
  | ret a => trivial
  | cut => trivial
  | ask o k ih => exact ⟨h o hp.1, fun r => ih r (hp.2 r)⟩

/-- Nothing is asked of the operations. -/
theorem always_true (p : Prog S α) : Always (fun _ => True) p := by
  induction p with
  | ret a => trivial
  | cut => trivial
  | ask o k ih => exact ⟨trivial, ih⟩

/-- **What every operation of `p` keeps, `p` keeps.**  The relation `R s t` from
the state before to the state after is reflexive and transitive; each operation
allowed by `J` is a step of it; then so is every stretch of the run of `p`. -/
theorem sat_of_always {R : σ → σ → Prop} (hrefl : ∀ s, R s s)
    (htrans : ∀ s t u, R s t → R t u → R s u) (hstep : ∀ o s, J o → R s (m o s).2)
    {p : Prog S α} (hp : Always J p) (s : σ) : Sat m (R s) (fun _ t => R s t) p s := by
  induction p generalizing s with
  | ret a => exact hrefl s
  | cut => trivial
  | ask o k ih =>
    have h := hstep o s hp.1
    exact ⟨h, (ih _ (hp.2 _) _).mono (fun t => htrans _ _ t h) fun _ t => htrans _ _ t h⟩

/-- So does the whole run, also where it is cut. -/
theorem run_of_always {R : σ → σ → Prop} (hrefl : ∀ s, R s s)
    (htrans : ∀ s t u, R s t → R t u → R s u) (hstep : ∀ o s, J o → R s (m o s).2)
    {p : Prog S α} (hp : Always J p) (s : σ) : R s (p.run m s).2 := by
  rcases run_mem_states m p s with h | h
  · rw [h]
    exact hrefl s
  · exact (sat_of_always hrefl htrans hstep hp s).states _ h

/-- Every operation that such a program asks for is asked where it may be. -/
theorem asked_of_always {R : σ → σ → Prop} (hrefl : ∀ s, R s s)
    (htrans : ∀ s t u, R s t → R t u → R s u) (hstep : ∀ o s, J o → R s (m o s).2)
    {p : Prog S α} (hp : Always J p) (s : σ) : ∀ x ∈ p.asked m s, J x.1 ∧ R s x.2 := by
  induction p generalizing s with
  | ret a => simp
  | cut => simp
  | ask o k ih =>
    intro x hx
    rcases List.mem_cons.1 hx with rfl | hx
    · exact ⟨hp.1, hrefl s⟩
    · obtain ⟨hJ, hR⟩ := ih _ (hp.2 _) _ x hx
      exact ⟨hJ, htrans _ _ _ (hstep o s hp.1) hR⟩

/-! ### Machines that agree -/

/-- The two machines do the same at every operation allowed by `J`. -/
def Agree (J : S.Op → Prop) (m m' : Machine S σ) : Prop := ∀ o s, J o → m o s = m' o s

section Agree

variable {m' : Machine S σ} {p : Prog S α}

/-- A program runs alike on machines that agree on its operations. -/
theorem Agree.run (h : Agree J m m') (hp : Always J p) (s : σ) : p.run m s = p.run m' s := by
  induction p generalizing s with
  | ret a => rfl
  | cut => rfl
  | ask o k ih =>
    rw [run_ask, run_ask, h o s hp.1]
    exact ih _ (hp.2 _) _

/-- It asks for the same operations in the same states. -/
theorem Agree.asked (h : Agree J m m') (hp : Always J p) (s : σ) : p.asked m s = p.asked m' s := by
  induction p generalizing s with
  | ret a => rfl
  | cut => rfl
  | ask o k ih =>
    rw [asked_ask, asked_ask, h o s hp.1, ih _ (hp.2 _)]

/-- What holds of its runs on the one machine holds on the other. -/
theorem Agree.sat (h : Agree J m m') (hp : Always J p) {s : σ} (hs : Sat m I Q p s) :
    Sat m' I Q p s := by
  induction p generalizing s with
  | ret a => exact hs
  | cut => trivial
  | ask o k ih =>
    obtain ⟨hI, hrest⟩ := hs
    rw [h o s hp.1] at hI hrest
    exact ⟨hI, ih _ (hp.2 _) hrest⟩

end Agree

/-- From every state in `A`, the run keeps the relation `R` to where it started. -/
def Keeps (m : Machine S σ) (A : σ → Prop) (R : σ → σ → Prop) (p : Prog S α) : Prop :=
  ∀ s, A s → Sat m (R s) (fun _ t => R s t) p s

/-- **The sequence rule**, for a relation that keeps what it starts from. -/
theorem Keeps.bind {A : σ → Prop} {R : σ → σ → Prop} (htrans : ∀ s t u, R s t → R t u → R s u)
    (hA : ∀ s t, A s → R s t → A t) {p : Prog S α} {f : α → Prog S β} (hp : Keeps m A R p)
    (hf : ∀ a, Keeps m A R (f a)) : Keeps m A R (p >>= f) := by
  intro s hs
  rw [sat_bind]
  refine (hp s hs).post fun a t hst => ?_
  exact (hf a t (hA s t hs hst)).mono (fun u => htrans s t u hst) fun _ u => htrans s t u hst

/-! ### Exact conditions -/

/-- `D` is exactly what the run of `p` from `s` needs to keep `I`.  Either every
operation is asked where `D` allows it, `I` holds after each of them and `Q` where
the run returns; or some operation is asked where `D` forbids it, and somewhere
`I` fails. -/
def Exact (m : Machine S σ) (D : S.Op → σ → Prop) (I : σ → Prop) (Q : α → σ → Prop)
    (p : Prog S α) (s : σ) : Prop :=
  ((∀ x ∈ p.asked m s, D x.1 x.2) ∧ Sat m I Q p s) ∨
    (∃ x ∈ p.asked m s, ¬ D x.1 x.2) ∧ ∃ t ∈ p.states m s, ¬ I t

variable {D : S.Op → σ → Prop}

/-- The invariant holds along the run exactly if every decision of it is a good one. -/
theorem Exact.iff {p : Prog S α} {s : σ} (h : Exact m D I Q p s) :
    (∀ t ∈ p.states m s, I t) ↔ ∀ x ∈ p.asked m s, D x.1 x.2 := by
  rcases h with ⟨hD, hI⟩ | ⟨⟨x, hx, hxD⟩, t, ht, htI⟩
  · exact ⟨fun _ => hD, fun _ => hI.states⟩
  · exact ⟨fun h => absurd (h t ht) htI, fun h => absurd (h x hx) hxD⟩

theorem exact_ret {a : α} {s : σ} (h : Q a s) : Exact m D I Q (.ret a : Prog S α) s :=
  .inl ⟨fun _ hx => absurd hx List.not_mem_nil, h⟩

/-- One operation that is allowed and keeps `I`. -/
theorem exact_ask {o : S.Op} {k : S.Answer o → Prog S α} {s : σ} (hD : D o s) (hI : I (m o s).2)
    (h : Exact m D I Q (k (m o s).1) (m o s).2) : Exact m D I Q (.ask o k) s := by
  rcases h with ⟨hD', hI'⟩ | ⟨⟨x, hx, hxD⟩, t, ht, htI⟩
  · refine .inl ⟨fun x hx => ?_, hI, hI'⟩
    rcases List.mem_cons.1 hx with rfl | hx
    · exact hD
    · exact hD' x hx
  · exact .inr ⟨⟨x, List.mem_cons_of_mem _ hx, hxD⟩, t, List.mem_cons_of_mem _ ht, htI⟩

/-- **The sequence rule.**  Once `I` has failed, the rest of the run does not matter. -/
theorem Exact.bind {p : Prog S α} {f : α → Prog S β} {Q : β → σ → Prop} {s : σ}
    (h : Exact m D I (fun a t => Exact m D I Q (f a) t) p s) : Exact m D I Q (p >>= f) s := by
  unfold Exact
  rw [asked_bind, states_bind, sat_bind]
  rcases h with ⟨hD, hI⟩ | ⟨⟨x, hx, hxD⟩, t, ht, htI⟩
  · rcases hrun : p.run m s with ⟨_ | a, t⟩
    · refine .inl ⟨by simpa using hD, (sat_iff p s).2 ⟨hI.states, fun a t hr => ?_⟩⟩
      rw [hrun] at hr
      cases hr
    · rcases hI.run hrun with ⟨hD', hI'⟩ | ⟨⟨x, hx, hxD⟩, u, hu, huI⟩
      · refine .inl ⟨fun x hx => (List.mem_append.1 hx).elim (hD x) (hD' x), ?_⟩
        refine (sat_iff p s).2 ⟨hI.states, fun a' t' hr => ?_⟩
        rw [hrun] at hr
        cases hr
        exact hI'
      · exact .inr ⟨⟨x, List.mem_append_right _ hx, hxD⟩, u, List.mem_append_right _ hu, huI⟩
  · exact .inr ⟨⟨x, List.mem_append_left _ hx, hxD⟩, t, List.mem_append_left _ ht, htI⟩

/-- Code that asks for nothing `D` forbids and keeps what `I` needs. -/
theorem exact_of_always {J : S.Op → Prop} {R : σ → σ → Prop} (hrefl : ∀ s, R s s)
    (htrans : ∀ s t u, R s t → R t u → R s u) (hstep : ∀ o s, J o → R s (m o s).2)
    {p : Prog S α} (hp : Always J p) {s : σ} (hD : ∀ o t, J o → R s t → D o t)
    (hI : ∀ t, R s t → I t) : Exact m D I (fun _ t => R s t) p s :=
  .inl ⟨fun x hx => hD x.1 x.2 (asked_of_always hrefl htrans hstep hp s x hx).1
      (asked_of_always hrefl htrans hstep hp s x hx).2,
    (sat_of_always hrefl htrans hstep hp s).mono hI fun _ _ => id⟩

/-- The postcondition can be weakened. -/
theorem Exact.post (hQ : ∀ a t, Q a t → Q' a t) {p : Prog S α} {s : σ}
    (h : Exact m D I Q p s) : Exact m D I Q' p s :=
  h.imp_left fun h => ⟨h.1, h.2.post hQ⟩

/-- What is known of the run itself. -/
theorem Exact.of_run {p : Prog S α} {s : σ} (h : Exact m D I Q p s)
    (hQ : ∀ a t, p.run m s = (some a, t) → Q a t → Q' a t) : Exact m D I Q' p s :=
  h.imp_left fun h =>
    ⟨h.1, (sat_iff p s).2 ⟨h.2.states, fun a t hr => hQ a t hr (h.2.run hr)⟩⟩

/-! ### Where operations may be asked -/

/-- Every operation of the run of `p` from `s` is asked where `D` allows it, and `Q` holds
where the run returns. -/
def Safe (m : Machine S σ) (D : S.Op → σ → Prop) (Q : α → σ → Prop) (p : Prog S α) (s : σ) :
    Prop :=
  (∀ x ∈ p.asked m s, D x.1 x.2) ∧ ∀ a t, p.run m s = (some a, t) → Q a t

/-- **The sequence rule.** -/
theorem Safe.bind {p : Prog S α} {f : α → Prog S β} {Q : β → σ → Prop} {s : σ}
    (h : Safe m D (fun a t => Safe m D Q (f a) t) p s) : Safe m D Q (p >>= f) s := by
  obtain ⟨hD, hrest⟩ := h
  constructor
  · intro x hx
    rw [asked_bind] at hx
    rcases hrun : p.run m s with ⟨_ | a, t⟩ <;> rw [hrun] at hx
    · exact hD x (by simpa using hx)
    · exact (List.mem_append.1 hx).elim (hD x) ((hrest a t hrun).1 x)
  · intro b u hu
    obtain ⟨a, t, ha, hb⟩ := (run_bind_eq_some m).1 hu
    exact (hrest a t ha).2 b u hb

/-- The postcondition can be weakened. -/
theorem Safe.post (hQ : ∀ a t, Q a t → Q' a t) {p : Prog S α} {s : σ} (h : Safe m D Q p s) :
    Safe m D Q' p s :=
  ⟨h.1, fun a t hrun => hQ a t (h.2 a t hrun)⟩

/-- A branch is safe where it is taken. -/
theorem Safe.ite {c : Prop} [Decidable c] {p q : Prog S α} {s : σ} (hp : c → Safe m D Q p s)
    (hq : ¬ c → Safe m D Q q s) : Safe m D Q (if c then p else q) s := by
  split_ifs with h
  · exact hp h
  · exact hq h

/-- Code with a known run, whose operations may be asked everywhere. -/
theorem safe_of_run {J : S.Op → Prop} {p : Prog S α} (hp : Always J p)
    (hD : ∀ o u, J o → D o u) {s t : σ} {a : α} (hrun : p.run m s = (some a, t)) (h : Q a t) :
    Safe m D Q p s := by
  constructor
  · intro x hx
    have hJ := asked_of_always (R := fun _ _ => True) (fun _ => trivial) (fun _ _ _ _ _ => trivial)
      (fun _ _ _ => trivial) hp s x hx
    exact hD x.1 x.2 hJ.1
  · intro a' t' hrun'
    obtain ⟨rfl, rfl⟩ : a = a' ∧ t = t' := by simpa using hrun.symm.trans hrun'
    exact h

/-- Code whose operations keep the relation `R`. -/
theorem safe_of_always {J : S.Op → Prop} {R : σ → σ → Prop} (hrefl : ∀ s, R s s)
    (htrans : ∀ s t u, R s t → R t u → R s u) (hstep : ∀ o s, J o → R s (m o s).2)
    {p : Prog S α} (hp : Always J p) {s : σ} (hD : ∀ o t, R s t → D o t)
    (hQ : ∀ a t, R s t → Q a t) : Safe m D Q p s :=
  ⟨fun x hx => hD x.1 x.2 (asked_of_always hrefl htrans hstep hp s x hx).2,
    fun a t hrun => hQ a t ((sat_of_always hrefl htrans hstep hp s).run hrun)⟩

end Prog
end Effect
