import Mathlib.Logic.Relation

/-!
# Labelled steps and chains of them

A step relation `step e s s'` whose label `e` says what the step does.

* `Chain step P s s'`   finitely many steps lead from `s` to `s'`, all with labels in `P`;
* `Chain.keeps`         what every allowed step keeps, a chain keeps (the induction over runs);
* `Chain.rel`           the same for a reflexive and transitive relation between the two ends;
* `Chain.mono`          fewer labels allowed, fewer chains.
-/

namespace HyperMoE.Lib

variable {ε σ : Type} {step : ε → σ → σ → Prop} {P Q : ε → Prop} {a b c : σ}

def Chain (step : ε → σ → σ → Prop) (P : ε → Prop) : σ → σ → Prop :=
  Relation.ReflTransGen fun s s' => ∃ e, P e ∧ step e s s'

namespace Chain

theorem refl : Chain step P a a := Relation.ReflTransGen.refl

theorem single {e : ε} (he : P e) (h : step e a b) : Chain step P a b :=
  Relation.ReflTransGen.single ⟨e, he, h⟩

theorem trans (h : Chain step P a b) (h' : Chain step P b c) : Chain step P a c :=
  Relation.ReflTransGen.trans h h'

theorem mono (h : Chain step P a b) (hP : ∀ e, P e → Q e) : Chain step Q a b := by
  induction h with
  | refl => exact refl
  | tail _ hs ih =>
    obtain ⟨e, he, hst⟩ := hs
    exact ih.trans (single (hP e he) hst)

/-- an invariant of the allowed steps is an invariant of the chain -/
theorem keeps {I : σ → Prop} (h : Chain step P a b)
    (hI : ∀ e s s', P e → step e s s' → I s → I s') (ha : I a) : I b := by
  induction h with
  | refl => exact ha
  | tail _ hs ih =>
    obtain ⟨e, he, hst⟩ := hs
    exact hI e _ _ he hst ih

/-- a reflexive and transitive relation that holds across every step holds across the chain -/
theorem rel {R : σ → σ → Prop} (h : Chain step P a b) (hr : ∀ s, R s s)
    (ht : ∀ s s' s'', R s s' → R s' s'' → R s s'')
    (hs : ∀ e s s', P e → step e s s' → R s s') : R a b := by
  induction h with
  | refl => exact hr _
  | tail _ hst ih =>
    obtain ⟨e, he, hst⟩ := hst
    exact ht _ _ _ ih (hs e _ _ he hst)

end Chain

end HyperMoE.Lib
