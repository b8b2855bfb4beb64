/-
# Runs through an abstraction

Often the run of a program depends on a small part of the state only.  `A x s` says
that the concrete state `s` has the abstract state `x`, and `Follows m A P x R`
that from such states the runs of `P` are those of the relation `R`: every run that
returns is one of `R`'s, and every one of `R`'s is a run that returns.

`Confined m I J P s Q` is for the operations of one kind: in the run of `P` from `s`
the operations in `I` are just those that `Q` asks for, from one state, in which `J`
holds.
-/

import DrewOS.Effect.Fuel

namespace Effect

variable {S : Interface} {σ τ α β γ : Type} {m : Machine S σ} {A : τ → σ → Prop}

/-! ### Results -/

/-- From the states that have the abstract state `x`, the runs of `P` are those of `R`. -/
structure Follows (m : Machine S σ) (A : τ → σ → Prop) (P : ℕ → Prog S α) (x : τ)
    (R : α → τ → Prop) : Prop where
  growing : Growing P
  sound : ∀ {s a t}, A x s → Returns m P s a t → ∃ y, R a y ∧ A y t
  complete : ∀ {s a y}, A x s → R a y → ∃ t, Returns m P s a t ∧ A y t

variable {P : ℕ → Prog S α} {F : ℕ → α → Prog S β} {x : τ} {R : α → τ → Prop}

/-- A program that has one run. -/
theorem follows_run {p : Prog S α} {a : α} {y : τ}
    (hp : ∀ s, A x s → ∃ t, p.run m s = (some a, t) ∧ A y t) :
    Follows m A (fun _ => p) x fun b z => b = a ∧ z = y where
  growing := growing_const p
  sound := by
    intro s b u hs hu
    obtain ⟨t, hrun, ht⟩ := hp s hs
    obtain ⟨rfl, rfl⟩ := hu.unique (growing_const p) ⟨0, hrun⟩
    exact ⟨y, ⟨rfl, rfl⟩, ht⟩
  complete := by
    rintro s b z hs ⟨rfl, rfl⟩
    obtain ⟨t, hrun, ht⟩ := hp s hs
    exact ⟨t, ⟨0, hrun⟩, ht⟩

/-- The relation between the results can be replaced by an equivalent one. -/
theorem Follows.congr {R' : α → τ → Prop} (h : Follows m A P x R) (hR : ∀ a y, R a y ↔ R' a y) :
    Follows m A P x R' where
  growing := h.growing
  sound := by
    intro s a t hs ht
    obtain ⟨y, hy, hA⟩ := h.sound hs ht
    exact ⟨y, (hR a y).1 hy, hA⟩
  complete := by
    intro s a y hs hy
    exact h.complete hs ((hR a y).2 hy)

/-- **The sequence rule.** -/
theorem Follows.bind {R' : α → τ → β → τ → Prop} (hP : Follows m A P x R)
    (hg : ∀ a, Growing fun n => F n a)
    (hF : ∀ a y, R a y → Follows m A (fun n => F n a) y (R' a y)) :
    Follows m A (fun n => P n >>= F n) x fun b z => ∃ a y, R a y ∧ R' a y b z where
  growing := hP.growing.bind hg
  sound := by
    intro s b u hs hu
    obtain ⟨a, t, ha, hb⟩ := (returns_bind hP.growing hg).1 hu
    obtain ⟨y, hR, hy⟩ := hP.sound hs ha
    obtain ⟨z, hR', hz⟩ := (hF a y hR).sound hy hb
    exact ⟨z, ⟨a, y, hR, hR'⟩, hz⟩
  complete := by
    rintro s b z hs ⟨a, y, hR, hR'⟩
    obtain ⟨t, ha, hy⟩ := hP.complete hs hR
    obtain ⟨u, hb, hz⟩ := (hF a y hR).complete hy hR'
    exact ⟨u, (returns_bind hP.growing hg).2 ⟨a, t, ha, hb⟩, hz⟩

/-- A first part that has one run. -/
theorem Follows.after {p : Prog S α} {a : α} {y : τ} {R' : β → τ → Prop}
    (hp : ∀ s, A x s → ∃ t, p.run m s = (some a, t) ∧ A y t)
    (hg : ∀ a, Growing fun n => F n a) (hF : Follows m A (fun n => F n a) y R') :
    Follows m A (fun n => p >>= F n) x R' := by
  have hrest : ∀ b z, b = a ∧ z = y → Follows m A (fun n => F n b) z R' := by
    rintro _ _ ⟨rfl, rfl⟩
    exact hF
  refine ((follows_run hp).bind hg hrest).congr fun b z => ⟨?_, fun h => ⟨a, y, ⟨rfl, rfl⟩, h⟩⟩
  rintro ⟨_, _, ⟨rfl, rfl⟩, h⟩
  exact h

/-! ### Operations -/

/-- The operations in `I` that `P` asks for from `s` are those that `Q` asks for from one
state, in which `J` holds; or there are none. -/
def Confined (m : Machine S σ) (I : S.Op → Prop) (J : σ → Prop) (P : ℕ → Prog S α) (s : σ)
    (Q : ℕ → Prog S γ) : Prop :=
  ∃ T : σ → Prop, (∀ v, T v → J v) ∧ (∀ v v', T v → T v' → v = v') ∧
    ∀ o u, I o → (Asks m P s o u ↔ ∃ v, T v ∧ Asks m Q v o u)

variable {I : S.Op → Prop} {J : σ → Prop} {Q : ℕ → Prog S γ} {s : σ}

/-- A state is confined to itself. -/
theorem confined_refl (h : J s) : Confined m I J Q s Q := by
  refine ⟨(· = s), fun v hv => hv ▸ h, fun v v' hv hv' => hv.trans hv'.symm, fun o u _ => ?_⟩
  refine ⟨fun ho => ⟨s, rfl, ho⟩, ?_⟩
  rintro ⟨v, rfl, ho⟩
  exact ho

/-- Code that asks for nothing in `I`. -/
theorem confined_of_always (h : ∀ n, Prog.Always (fun o => ¬ I o) (P n)) :
    Confined m I J P s Q := by
  refine ⟨fun _ => False, fun _ hv => hv.elim, fun _ _ hv => hv.elim, fun o u ho => ?_⟩
  refine iff_of_false ?_ ?_
  · rintro ⟨n, hn⟩
    exact (h n).asked hn ho
  · rintro ⟨v, hv, -⟩
    exact hv

/-- **A first part that asks for nothing in `I`.** -/
theorem Confined.after (hP : Growing P) (hF : ∀ a, Growing fun n => F n a)
    (h : ∀ n, Prog.Always (fun o => ¬ I o) (P n))
    (hrest : ∀ a t, Returns m P s a t → Confined m I J (fun n => F n a) t Q) :
    Confined m I J (fun n => P n >>= F n) s Q := by
  choose T hJ hone hT using hrest
  refine ⟨fun v => ∃ a t, ∃ hat : Returns m P s a t, T a t hat v, ?_, ?_, fun o u ho => ?_⟩
  · rintro v ⟨a, t, hat, hv⟩
    exact hJ a t hat v hv
  · rintro v v' ⟨a, t, hat, hv⟩ ⟨a', t', hat', hv'⟩
    obtain ⟨rfl, rfl⟩ := hat.unique hP hat'
    exact hone a t hat v v' hv hv'
  rw [asks_bind hP hF]
  constructor
  · rintro (⟨n, hn⟩ | ⟨a, t, hat, hu⟩)
    · exact absurd ho ((h n).asked hn)
    · obtain ⟨v, hv, hvo⟩ := (hT a t hat o u ho).1 hu
      exact ⟨v, ⟨a, t, hat, hv⟩, hvo⟩
  · rintro ⟨v, ⟨a, t, hat, hv⟩, hvo⟩
    exact .inr ⟨a, t, hat, (hT a t hat o u ho).2 ⟨v, hv, hvo⟩⟩

/-- A last part that asks for nothing in `I`. -/
theorem Confined.before (hP : Growing P) (hF : ∀ a, Growing fun n => F n a)
    (h : Confined m I J P s Q) (hrest : ∀ a n, Prog.Always (fun o => ¬ I o) (F n a)) :
    Confined m I J (fun n => P n >>= F n) s Q := by
  obtain ⟨T, hJ, hone, hT⟩ := h
  refine ⟨T, hJ, hone, fun o u ho => ?_⟩
  rw [asks_bind hP hF, ← hT o u ho]
  refine ⟨fun h => h.resolve_right ?_, .inl⟩
  rintro ⟨a, t, -, n, hn⟩
  exact (hrest a n).asked hn ho

end Effect
