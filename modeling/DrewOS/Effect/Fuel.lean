/-
# Recursion that the answers drive

A program whose recursion has no bound of its own is a family `P : ℕ → Prog S α`
over the depth it may use, `cut` standing where a run that goes deeper is broken
off.  With more depth a run only gets further (`Below`), so the family has one
run: it returns if it returns at some depth (`Returns`), and it asks what it
asks at some depth (`Asks`).

`Decided m D P` says that `D` decides termination: from every state, `P` returns
if and only if every operation it asks is asked in a state allowed by `D`.  Such
families are closed under sequencing, and `decided_retry` is the rule for a loop
that goes on as long as the answers say so: it returns unless it never stops.
-/

import DrewOS.Effect.Logic
import Mathlib.Logic.Function.Iterate
import Mathlib.Order.WellFounded

namespace Effect

variable {S : Interface} {σ α β : Type}

/-! ### More depth -/

/-- `q` is `p` with some of its cuts replaced by programs. -/
inductive Below : Prog S α → Prog S α → Prop where
  | cut (q : Prog S α) : Below .cut q
  | ret (a : α) : Below (.ret a) (.ret a)
  | ask (o : S.Op) {k k' : S.Answer o → Prog S α} (h : ∀ r, Below (k r) (k' r)) :
      Below (.ask o k) (.ask o k')

theorem Below.refl (p : Prog S α) : Below p p := by
  induction p with
  | ret a => exact .ret a
  | cut => exact .cut _
  | ask o k ih => exact .ask o ih

/-- Running further than what already runs further. -/
theorem Below.trans {p q r : Prog S α} (h : Below p q) (h' : Below q r) : Below p r := by
  induction h generalizing r with
  | cut q => exact .cut r
  | ret a => exact h'
  | ask o h ih =>
    cases h' with
    | ask _ h' => exact .ask o fun a => ih a (h' a)

/-- Sequencing keeps the order, in the first part and in every continuation. -/
theorem Below.bind {p q : Prog S α} {f g : α → Prog S β} (h : Below p q)
    (hf : ∀ a, Below (f a) (g a)) : Below (p >>= f) (q >>= g) := by
  induction h with
  | cut q => exact .cut _
  | ret a => exact hf a
  | ask o h ih => exact .ask o ih

variable {m : Machine S σ}

/-- What returns is not changed by more fuel. -/
theorem Below.run {p q : Prog S α} (h : Below p q) {s t : σ} {a : α}
    (hr : p.run m s = (some a, t)) : q.run m s = (some a, t) := by
  induction h generalizing s with
  | cut q => simp at hr
  | ret a => exact hr
  | ask o h ih => exact ih _ hr

/-- What is asked is asked with more fuel, too. -/
theorem Below.asked {p q : Prog S α} (h : Below p q) {s : σ} :
    ∀ x ∈ p.asked m s, x ∈ q.asked m s := by
  induction h generalizing s with
  | cut q => simp
  | ret a => simp
  | ask o h ih =>
    intro x hx
    rcases List.mem_cons.1 hx with rfl | hx
    · exact List.mem_cons_self ..
    · exact List.mem_cons_of_mem _ (ih _ x hx)

/-- A family that grows with the depth. -/
def Growing (P : ℕ → Prog S α) : Prop := ∀ n, Below (P n) (P (n + 1))

/-- Code that uses no fuel. -/
theorem growing_const (p : Prog S α) : Growing fun _ => p := fun _ => .refl p

/-- More fuel runs further. -/
theorem Growing.le {P : ℕ → Prog S α} (h : Growing P) {i j : ℕ} (hij : i ≤ j) :
    Below (P i) (P j) := by
  induction j, hij using Nat.le_induction with
  | base => exact .refl _
  | succ j _ ih => exact ih.trans (h j)

/-- Both parts get the same fuel. -/
theorem Growing.bind {P : ℕ → Prog S α} {F : ℕ → α → Prog S β} (hP : Growing P)
    (hF : ∀ a, Growing fun n => F n a) : Growing fun n => P n >>= F n :=
  fun n => (hP n).bind fun a => hF a n

/-! ### The run of a family -/

variable (m) in
/-- The run from `s` returns `a` in state `t`. -/
def Returns (P : ℕ → Prog S α) (s : σ) (a : α) (t : σ) : Prop :=
  ∃ n, (P n).run m s = (some a, t)

variable (m) in
/-- The run from `s` asks for `o` in state `u`. -/
def Asks (P : ℕ → Prog S α) (s : σ) (o : S.Op) (u : σ) : Prop :=
  ∃ n, (o, u) ∈ (P n).asked m s

/-- The result does not depend on the amount of fuel that is enough for it. -/
theorem Returns.unique {P : ℕ → Prog S α} (hP : Growing P) {s t t' : σ} {a a' : α}
    (h : Returns m P s a t) (h' : Returns m P s a' t') : a = a' ∧ t = t' := by
  obtain ⟨i, hi⟩ := h
  obtain ⟨j, hj⟩ := h'
  have h1 := (hP.le (le_max_left i j)).run hi
  have h2 := (hP.le (le_max_right i j)).run hj
  rw [h1] at h2
  simpa using h2

/-- A sequence returns if and only if its parts do, one after the other. -/
theorem returns_bind {P : ℕ → Prog S α} {F : ℕ → α → Prog S β} (hP : Growing P)
    (hF : ∀ a, Growing fun n => F n a) {s u : σ} {b : β} :
    Returns m (fun n => P n >>= F n) s b u ↔
      ∃ a t, Returns m P s a t ∧ Returns m (fun n => F n a) t b u := by
  constructor
  · rintro ⟨n, hn⟩
    obtain ⟨a, t, h1, h2⟩ := (Prog.run_bind_eq_some m).1 hn
    exact ⟨a, t, ⟨n, h1⟩, n, h2⟩
  · rintro ⟨a, t, ⟨i, hi⟩, j, hj⟩
    refine ⟨max i j, (Prog.run_bind_eq_some m).2 ⟨a, t, ?_, ?_⟩⟩
    · exact (hP.le (le_max_left i j)).run hi
    · exact ((hF a).le (le_max_right i j)).run hj

/-- What a sequence asks is asked by its first part, or behind that part's return. -/
theorem asks_bind {P : ℕ → Prog S α} {F : ℕ → α → Prog S β} (hP : Growing P)
    (hF : ∀ a, Growing fun n => F n a) {s u : σ} {o : S.Op} :
    Asks m (fun n => P n >>= F n) s o u ↔
      Asks m P s o u ∨ ∃ a t, Returns m P s a t ∧ Asks m (fun n => F n a) t o u := by
  constructor
  · rintro ⟨n, hn⟩
    rw [Prog.asked_bind, List.mem_append] at hn
    rcases hn with hn | hn
    · exact .inl ⟨n, hn⟩
    · rcases hr : (P n).run m s with ⟨_ | a, t⟩
      · rw [hr] at hn
        simp at hn
      · rw [hr] at hn
        exact .inr ⟨a, t, ⟨n, hr⟩, n, hn⟩
  · rintro (⟨n, hn⟩ | ⟨a, t, ⟨i, hi⟩, j, hj⟩)
    · refine ⟨n, ?_⟩
      rw [Prog.asked_bind]
      exact List.mem_append_left _ hn
    · refine ⟨max i j, ?_⟩
      rw [Prog.asked_bind, (hP.le (le_max_left i j)).run hi]
      exact List.mem_append_right _ (((hF a).le (le_max_right i j)).asked _ hj)

/-! ### Deciding termination -/

/-- The program returns whatever it is answered. -/
def CutFree : Prog S α → Prop
  | .ret _ => True
  | .cut => False
  | .ask _ k => ∀ r, CutFree (k r)

/-- A sequence of parts that never run out of fuel. -/
theorem CutFree.bind {p : Prog S α} {f : α → Prog S β} (hp : CutFree p)
    (hf : ∀ a, CutFree (f a)) : CutFree (p >>= f) := by
  induction p with
  | ret a => exact hf a
  | cut => exact hp
  | ask o k ih => exact fun r => ih r (hp r)

theorem CutFree.ite (c : Prop) [Decidable c] {p q : Prog S α} (hp : CutFree p) (hq : CutFree q) :
    CutFree (if c then p else q) := by
  split_ifs
  · exact hp
  · exact hq

/-- Code that never runs out of fuel returns from every state. -/
theorem CutFree.returns {p : Prog S α} (hp : CutFree p) (s : σ) :
    ∃ a t, p.run m s = (some a, t) := by
  induction p generalizing s with
  | ret a => exact ⟨a, s, rfl⟩
  | cut => exact absurd hp id
  | ask o k ih => exact ih _ (hp _) _

/-- `D` decides whether `P` returns. -/
structure Decided (m : Machine S σ) (D : S.Op → σ → Prop) (P : ℕ → Prog S α) : Prop where
  growing : Growing P
  returns_iff : ∀ s, (∃ a t, Returns m P s a t) ↔ ∀ o u, Asks m P s o u → D o u

/-- What holds of every operation of a program holds of those of its runs. -/
theorem Prog.Always.asked {J : S.Op → Prop} {p : Prog S α} (h : Prog.Always J p) {s u : σ}
    {o : S.Op} (ho : (o, u) ∈ p.asked m s) : J o := by
  induction p generalizing s with
  | ret a => simp at ho
  | cut => simp at ho
  | ask o' k ih =>
    rcases List.mem_cons.1 ho with he | ho
    · rw [(Prod.mk.inj he).1]
      exact h.1
    · exact ih _ (h.2 _) ho

variable {D : S.Op → σ → Prop}

/-- A program without recursion, all of whose operations are allowed everywhere. -/
theorem decided_of_always {p : Prog S α} (hc : CutFree p)
    (ha : Prog.Always (fun o => ∀ u, D o u) p) : Decided m D fun _ => p := by
  refine ⟨growing_const p, fun s => ⟨fun _ o u ⟨_, h⟩ => ha.asked h u, fun _ => ?_⟩⟩
  obtain ⟨a, t, h⟩ := hc.returns (m := m) s
  exact ⟨a, t, 0, h⟩

/-- A program that returns from everywhere, and asks for nothing that `D` forbids. -/
theorem decided_of_returns {p : Prog S α} (hret : ∀ s, ∃ a t, p.run m s = (some a, t))
    (ha : Prog.Always (fun o => ∀ u, D o u) p) : Decided m D fun _ => p := by
  refine ⟨growing_const p, fun s => ⟨fun _ o u ⟨_, h⟩ => ha.asked h u, fun _ => ?_⟩⟩
  obtain ⟨a, t, h⟩ := hret s
  exact ⟨a, t, 0, h⟩

/-- What `D` says of operations that are not asked does not matter. -/
theorem Decided.congr {J : S.Op → Prop} {D' : S.Op → σ → Prop} {P : ℕ → Prog S α}
    (h : Decided m D P) (hP : ∀ n, Prog.Always J (P n)) (hJ : ∀ o u, J o → (D o u ↔ D' o u)) :
    Decided m D' P := by
  have hasked : ∀ {s o u}, Asks m P s o u → (D o u ↔ D' o u) := by
    rintro s o u ⟨n, ho⟩
    exact hJ o u ((hP n).asked ho)
  exact ⟨h.growing, fun s => (h.returns_iff s).trans
    (forall_congr' fun o => forall_congr' fun u => forall_congr' hasked)⟩

/-- Machines that agree on what a family asks decide it alike. -/
theorem Decided.agree {J : S.Op → Prop} {m' : Machine S σ} {P : ℕ → Prog S α}
    (h : Decided m D P) (hP : ∀ n, Prog.Always J (P n)) (hm : Prog.Agree J m m') :
    Decided m' D P := by
  refine ⟨h.growing, fun s => ?_⟩
  have hreturns : (∃ a t, Returns m' P s a t) ↔ ∃ a t, Returns m P s a t :=
    exists_congr fun a => exists_congr fun t => exists_congr fun n => by rw [hm.run (hP n)]
  have hasks : ∀ o u, Asks m' P s o u ↔ Asks m P s o u := fun o u =>
    exists_congr fun n => by rw [hm.asked (hP n)]
  rw [hreturns, h.returns_iff]
  exact forall_congr' fun o => forall_congr' fun u => imp_congr_left (hasks o u).symm

/-- **The sequence rule.** -/
theorem Decided.bind {P : ℕ → Prog S α} {F : ℕ → α → Prog S β} (hP : Decided m D P)
    (hF : ∀ a, Decided m D fun n => F n a) : Decided m D fun n => P n >>= F n := by
  have hg : ∀ a, Growing fun n => F n a := fun a => (hF a).growing
  refine ⟨hP.growing.bind hg, fun s => ⟨?_, fun h => ?_⟩⟩
  · rintro ⟨b, u, hb⟩ o v hv
    obtain ⟨a, t, h1, h2⟩ := (returns_bind hP.growing hg).1 hb
    rcases (asks_bind hP.growing hg).1 hv with hv | ⟨a', t', h1', hv⟩
    · exact (hP.returns_iff s).1 ⟨a, t, h1⟩ o v hv
    · obtain ⟨rfl, rfl⟩ := h1.unique hP.growing h1'
      exact ((hF a).returns_iff t).1 ⟨b, u, h2⟩ o v hv
  · obtain ⟨a, t, h1⟩ := (hP.returns_iff s).2 fun o v hv =>
      h o v ((asks_bind hP.growing hg).2 (.inl hv))
    obtain ⟨b, u, h2⟩ := ((hF a).returns_iff t).2 fun o v hv =>
      h o v ((asks_bind hP.growing hg).2 (.inr ⟨a, t, h1, hv⟩))
    exact ⟨b, u, (returns_bind hP.growing hg).2 ⟨a, t, h1, h2⟩⟩

/-- A test of a fixed condition is decided as its branches are. -/
theorem Decided.ite (c : Prop) [Decidable c] {P Q : ℕ → Prog S α} (hP : Decided m D P)
    (hQ : Decided m D Q) : Decided m D fun n => if c then P n else Q n := by
  by_cases h : c
  · simpa only [if_pos h] using hP
  · simpa only [if_neg h] using hQ

/-! ### Loops that the answers drive -/

/-- A family that starts with a cut has the runs of its successors. -/
theorem returns_succ {R : ℕ → Prog S α} (h0 : R 0 = .cut) {s t : σ} {a : α} :
    Returns m R s a t ↔ Returns m (fun n => R (n + 1)) s a t := by
  constructor
  · rintro ⟨_ | n, hn⟩
    · rw [h0] at hn
      simp at hn
    · exact ⟨n, hn⟩
  · rintro ⟨n, hn⟩
    exact ⟨n + 1, hn⟩

/-- Without fuel nothing is asked, so the first unit of fuel makes no difference. -/
theorem asks_succ {R : ℕ → Prog S α} (h0 : R 0 = .cut) {s u : σ} {o : S.Op} :
    Asks m R s o u ↔ Asks m (fun n => R (n + 1)) s o u := by
  constructor
  · rintro ⟨_ | n, hn⟩
    · rw [h0] at hn
      simp at hn
    · exact ⟨n, hn⟩
  · rintro ⟨n, hn⟩
    exact ⟨n + 1, hn⟩

/-- The state after the round that starts with `o` in `u`, when the answer is to
go on. -/
def Round (m : Machine S σ) (o : S.Op) (P : ℕ → Prog S α) (again : α → Prop) (u u' : σ) : Prop :=
  ∃ a, Returns m P (m o u).2 a u' ∧ again a

/-- Round after round, without end. -/
def Endless (m : Machine S σ) (o : S.Op) (P : ℕ → Prog S α) (again : α → Prop) (u : σ) : Prop :=
  ∃ f : ℕ → σ, f 0 = u ∧ ∀ k, Round m o P again (f k) (f (k + 1))

/-- That no chain of rounds is endless says that the rounds are well founded at the start. -/
theorem not_endless_iff {o : S.Op} {P : ℕ → Prog S α} {again : α → Prop} {u : σ} :
    ¬ Endless m o P again u ↔ Acc (fun u' u => Round m o P again u u') u := by
  rw [Endless, ← not_acc_iff_exists_descending_chain (r := fun u' u => Round m o P again u u'),
    not_not]

/-- The rounds do not go on for ever if they do not do so from the next one. -/
theorem not_endless_of_round {o : S.Op} {P : ℕ → Prog S α} {again : α → Prop} (hP : Growing P)
    {s u : σ} {a : α} (ha : Returns m P (m o s).2 a u) (h : again a → ¬ Endless m o P again u) :
    ¬ Endless m o P again s := by
  rintro ⟨f, rfl, hf⟩
  obtain ⟨a', ha', hag⟩ := hf 0
  obtain ⟨rfl, hfu⟩ := ha.unique hP ha'
  exact h hag ⟨fun k => f (k + 1), hfu.symm, fun k => hf (k + 1)⟩

/-- **Rounds that a part of the state determines.**  When the answer of a round
and the part `g` of the state after it depend on `g` of the state before alone,
the rounds go on for ever if the answer is to go on at every iterate. -/
theorem endless_iff_iterate {τ : Type} {o : S.Op} {P : ℕ → Prog S α} {again : α → Prop}
    (hP : Growing P) (g : σ → τ) (step : τ → τ) (more : τ → Prop)
    (h : ∀ u, ∃ a t, Returns m P (m o u).2 a t ∧ (again a ↔ more (g u)) ∧ g t = step (g u))
    {u : σ} : Endless m o P again u ↔ ∀ k, more (step^[k] (g u)) := by
  have hround : ∀ u u', Round m o P again u u' → more (g u) ∧ g u' = step (g u) := by
    rintro u u' ⟨a, ha, hagain⟩
    obtain ⟨a', t, ht, hmore, hg⟩ := h u
    obtain ⟨rfl, rfl⟩ := ha.unique hP ht
    exact ⟨hmore.1 hagain, hg⟩
  constructor
  · rintro ⟨f, rfl, hf⟩ k
    have hk : g (f k) = step^[k] (g (f 0)) := by
      induction k with
      | zero => rfl
      | succ k ih => rw [(hround _ _ (hf k)).2, ih, Function.iterate_succ_apply']
    rw [← hk]
    exact (hround _ _ (hf k)).1
  · intro hmore
    choose a t ht hagain hg using h
    have hk : ∀ k, g (t^[k] u) = step^[k] (g u) := by
      intro k
      induction k with
      | zero => rfl
      | succ k ih => rw [Function.iterate_succ_apply', Function.iterate_succ_apply', hg, ih]
    refine ⟨fun k => t^[k] u, rfl, fun k => ⟨a (t^[k] u), ?_, ?_⟩⟩
    · simpa only [Function.iterate_succ_apply'] using ht (t^[k] u)
    · rw [hagain, hk]
      exact hmore k

/-- **Rounds that a relation on a part of the state describes.**  When the rounds from the
states in `A` are those of the relation `next` on the part `g` of the state, they go on
for ever if there is an endless chain of `next`. -/
theorem endless_iff_chain {τ : Type} {o : S.Op} {P : ℕ → Prog S α} {again : α → Prop}
    (A : σ → Prop) (g : σ → τ) (next : τ → τ → Prop)
    (hround : ∀ u u', A u → Round m o P again u u' → A u' ∧ next (g u) (g u'))
    (hnext : ∀ u x, A u → next (g u) x → ∃ u', Round m o P again u u' ∧ g u' = x)
    {u : σ} (hu : A u) :
    Endless m o P again u ↔ ∃ f : ℕ → τ, f 0 = g u ∧ ∀ k, next (f k) (f (k + 1)) := by
  constructor
  · rintro ⟨f, rfl, hf⟩
    have hA : ∀ k, A (f k) := by
      intro k
      induction k with
      | zero => exact hu
      | succ k ih => exact (hround _ _ ih (hf k)).1
    exact ⟨fun k => g (f k), rfl, fun k => (hround _ _ (hA k) (hf k)).2⟩
  · rintro ⟨f, h0, hf⟩
    -- each state of the chain is met by one of the run
    have hstep : ∀ k (v : {v : σ // A v ∧ g v = f k}), ∃ v' : {v : σ // A v ∧ g v = f (k + 1)},
        Round m o P again v.1 v'.1 := by
      rintro k ⟨v, hv, hgv⟩
      obtain ⟨v', hv', hgv'⟩ := hnext v _ hv (hgv ▸ hf k)
      exact ⟨⟨v', (hround v v' hv hv').1, hgv'⟩, hv'⟩
    choose succ hsucc using hstep
    let run : ∀ k, {v : σ // A v ∧ g v = f k} := fun k => Nat.rec ⟨u, hu, h0.symm⟩ succ k
    exact ⟨fun k => (run k).1, rfl, fun k => hsucc k (run k)⟩

/-- `R` is a loop that the answers drive: each round asks for `o` and runs `P`; by
its result the loop goes on (and runs `K` on the way back) or ends with `Q`. -/
structure Retry (o : S.Op) (R : ℕ → Prog S β) (P : ℕ → Prog S α) (again : α → Prop)
    [DecidablePred again] (Q : ℕ → α → Prog S β) (K : β → Prog S β) : Prop where
  zero : R 0 = .cut
  succ : ∀ n, R (n + 1) =
    .ask o fun _ => P n >>= fun a => if again a then R n >>= K else Q n a

section Retry

variable {R : ℕ → Prog S β} {P : ℕ → Prog S α} {again : α → Prop} [DecidablePred again]
  {Q : ℕ → α → Prog S β} {K : β → Prog S β} {o : S.Op}

/-- More fuel lets the rounds go on. -/
theorem Retry.growing (h : Retry o R P again Q K) (hP : Growing P)
    (hQ : ∀ a, Growing fun n => Q n a) : Growing R := by
  intro n
  induction n with
  | zero =>
    rw [h.zero]
    exact .cut _
  | succ n ih =>
    rw [h.succ, h.succ]
    refine .ask o fun _ => (hP n).bind fun a => ?_
    split_ifs
    · exact ih.bind fun b => .refl _
    · exact hQ a n

/-- What follows a round. -/
theorem Retry.growing_rest (h : Retry o R P again Q K) (hP : Growing P)
    (hQ : ∀ a, Growing fun n => Q n a) (a : α) :
    Growing fun n => if again a then R n >>= K else Q n a := by
  intro n
  by_cases ha : again a
  · simpa only [if_pos ha] using (h.growing hP hQ n).bind fun b => .refl _
  · simpa only [if_neg ha] using hQ a n

/-- A run of the loop is a round followed by the rest. -/
theorem Retry.returns_iff (h : Retry o R P again Q K) (hP : Growing P)
    (hQ : ∀ a, Growing fun n => Q n a) {s t : σ} {b : β} :
    Returns m R s b t ↔ ∃ a u, Returns m P (m o s).2 a u ∧
      Returns m (fun n => if again a then R n >>= K else Q n a) u b t := by
  rw [returns_succ h.zero, ← returns_bind hP (h.growing_rest hP hQ)]
  simp only [h.succ]
  rfl

/-- The loop asks for `o`, then what the round asks and what the rest asks. -/
theorem Retry.asks_iff (h : Retry o R P again Q K) (hP : Growing P)
    (hQ : ∀ a, Growing fun n => Q n a) {s v : σ} {o' : S.Op} :
    Asks m R s o' v ↔ (o' = o ∧ v = s) ∨ Asks m P (m o s).2 o' v ∨
      ∃ a u, Returns m P (m o s).2 a u ∧
        Asks m (fun n => if again a then R n >>= K else Q n a) u o' v := by
  rw [asks_succ h.zero, ← asks_bind hP (h.growing_rest hP hQ)]
  simp only [h.succ]
  constructor
  · rintro ⟨n, hn⟩
    rcases List.mem_cons.1 hn with he | hn
    · exact .inl ⟨(Prod.mk.inj he).1, (Prod.mk.inj he).2⟩
    · exact .inr ⟨n, hn⟩
  · rintro (⟨rfl, rfl⟩ | ⟨n, hn⟩)
    · exact ⟨0, List.mem_cons_self ..⟩
    · exact ⟨n, List.mem_cons_of_mem _ hn⟩

/-- A loop that returns asks for what `D` allows only, by induction on the depth
at which it returns. -/
theorem Retry.allowed (h : Retry o R P again Q K)
    (hD : ∀ u, D o u ↔ ¬ Endless m o P again u) (hP : Decided m D P)
    (hQ : ∀ a, Decided m D fun n => Q n a) (hK : ∀ b, Decided m D fun _ => K b) {n : ℕ}
    {s t : σ} {b : β} (hn : (R n).run m s = (some b, t)) {o' : S.Op} {v : σ}
    (hv : Asks m R s o' v) : D o' v := by
  have hQg : ∀ a, Growing fun n => Q n a := fun a => (hQ a).growing
  have hR : Growing R := h.growing hP.growing hQg
  induction n generalizing s b t o' v with
  | zero =>
    rw [h.zero] at hn
    simp at hn
  | succ n ih =>
    rw [h.succ] at hn
    obtain ⟨a, u, ha, hu⟩ := (Prog.run_bind_eq_some m).1 hn
    have hPa : Returns m P (m o s).2 a u := ⟨n, ha⟩
    -- the next round, if there is one, returns at a smaller depth
    have hnext : again a → ∃ b' t', (R n).run m u = (some b', t') ∧
        (K b').run m t' = (some b, t) := by
      intro hag
      rw [if_pos hag] at hu
      exact (Prog.run_bind_eq_some m).1 hu
    rcases (h.asks_iff hP.growing hQg).1 hv with ⟨rfl, rfl⟩ | hv | ⟨a', u', ha', hv⟩
    · refine (hD v).2 (not_endless_of_round hP.growing hPa fun hag => (hD u).1 ?_)
      obtain ⟨b', t', hb', -⟩ := hnext hag
      exact ih hb' ((h.asks_iff hP.growing hQg).2 (.inl ⟨rfl, rfl⟩))
    · exact (hP.returns_iff _).1 ⟨a, u, hPa⟩ o' v hv
    · obtain ⟨rfl, rfl⟩ := hPa.unique hP.growing ha'
      by_cases hag : again a
      · simp only [if_pos hag] at hv
        obtain ⟨b', t', hb', ht'⟩ := hnext hag
        rcases (asks_bind hR fun b => (hK b).growing).1 hv with hv | ⟨b'', t'', hb'', hv⟩
        · exact ih hb' hv
        · obtain ⟨rfl, rfl⟩ := Returns.unique hR ⟨n, hb'⟩ hb''
          exact ((hK b').returns_iff t').1 ⟨b, t, 0, ht'⟩ o' v hv
      · simp only [if_neg hag] at hv hu
        exact ((hQ a).returns_iff u).1 ⟨b, t, n, hu⟩ o' v hv

/-- A loop that asks for what `D` allows only returns, by induction on the rounds,
which come to an end. -/
theorem Retry.returns (h : Retry o R P again Q K)
    (hD : ∀ u, D o u ↔ ¬ Endless m o P again u) (hP : Decided m D P)
    (hQ : ∀ a, Decided m D fun n => Q n a) (hK : ∀ b, Decided m D fun _ => K b) {s : σ}
    (hs : ∀ o' v, Asks m R s o' v → D o' v) : ∃ b t, Returns m R s b t := by
  have hQg : ∀ a, Growing fun n => Q n a := fun a => (hQ a).growing
  have hR : Growing R := h.growing hP.growing hQg
  have hacc : Acc (fun u' u => Round m o P again u u') s :=
    not_endless_iff.1 ((hD s).1 (hs o s ((h.asks_iff hP.growing hQg).2 (.inl ⟨rfl, rfl⟩))))
  induction hacc with
  | intro s _ ih =>
    obtain ⟨a, u, ha⟩ := (hP.returns_iff (m o s).2).2 fun o' v hv =>
      hs o' v ((h.asks_iff hP.growing hQg).2 (.inr (.inl hv)))
    have hafter : ∀ o' v, Asks m (fun n => if again a then R n >>= K else Q n a) u o' v →
        D o' v := fun o' v hv =>
      hs o' v ((h.asks_iff hP.growing hQg).2 (.inr (.inr ⟨a, u, ha, hv⟩)))
    by_cases hag : again a
    · simp only [if_pos hag] at hafter
      obtain ⟨b, t, hb⟩ := ih u ⟨a, ha, hag⟩ fun o' v hv =>
        hafter o' v ((asks_bind hR fun b => (hK b).growing).2 (.inl hv))
      obtain ⟨c, t', hc⟩ := ((hK b).returns_iff t).2 fun o' v hv =>
        hafter o' v ((asks_bind hR fun b => (hK b).growing).2 (.inr ⟨b, t, hb, hv⟩))
      refine ⟨c, t', (h.returns_iff hP.growing hQg).2 ⟨a, u, ha, ?_⟩⟩
      simp only [if_pos hag]
      exact (returns_bind hR fun b => (hK b).growing).2 ⟨b, t, hb, hc⟩
    · simp only [if_neg hag] at hafter
      obtain ⟨b, t, hb⟩ := ((hQ a).returns_iff u).2 hafter
      refine ⟨b, t, (h.returns_iff hP.growing hQg).2 ⟨a, u, ha, ?_⟩⟩
      simpa only [if_neg hag] using hb

/-- **The rule of a loop that the answers drive.**  When `D` allows `o` exactly
where the rounds end at some point, and decides the parts of a round, it decides
the loop. -/
theorem decided_retry (h : Retry o R P again Q K)
    (hD : ∀ u, D o u ↔ ¬ Endless m o P again u) (hP : Decided m D P)
    (hQ : ∀ a, Decided m D fun n => Q n a) (hK : ∀ b, Decided m D fun _ => K b) :
    Decided m D R where
  growing := h.growing hP.growing fun a => (hQ a).growing
  returns_iff s := by
    constructor
    · rintro ⟨b, t, n, hn⟩ o' v hv
      exact h.allowed hD hP hQ hK hn hv
    · exact h.returns hD hP hQ hK

end Retry

end Effect
