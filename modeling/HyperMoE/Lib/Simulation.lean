import HyperMoE.Lib.Fallible
import HyperMoE.Lib.Outcome

/-!
# One program for another

A program over a state of its own takes the place of another one: from states that stand for each
other, where the one answers the other one answers as well, their answers stand for each other, and
the states do afterwards.  What the one throws is left open.

* `Simulates A R y t x s`   `y` from `t` takes the place of `x` from `s`;
* `Replaces R y t x s`      with the same answer;
* `Simulates.bind`, `settle_bind` ...   step by step;
* `Replaces.forEach`, `foldlM_of_rounds`   a loop, by what every round is told.
-/

namespace HyperMoE.Lib.Fallible

variable {ε σ τ α β α' β' : Type} {R R' : τ → σ → Prop} {A : α' → α → Prop} {B : β' → β → Prop}

/-- where `x` returns from `s`, `y` returns from `t` -/
def Simulates (A : α' → α → Prop) (R : τ → σ → Prop) (y : Fallible ε τ α') (t : τ)
    (x : Fallible ε σ α) (s : σ) : Prop :=
  ∀ a s', Gives x s a s' → ∃ b t', Gives y t b t' ∧ A b a ∧ R t' s'

abbrev Replaces (R : τ → σ → Prop) (y : Fallible ε τ α) (t : τ) (x : Fallible ε σ α) (s : σ) : Prop :=
  Simulates Eq R y t x s

namespace Simulates
variable {x : Fallible ε σ α} {y : Fallible ε τ α'} {f : α → Fallible ε σ β} {g : α' → Fallible ε τ β'}
  {s : σ} {t : τ}

protected theorem pure {a : α} {b : α'} (hA : A b a) (h : R t s) :
    Simulates A R (pure b : Fallible ε τ α') t (pure a : Fallible ε σ α) s := by
  intro c s' hx
  obtain ⟨rfl, rfl⟩ := gives_pure.mp hx
  exact ⟨b, t, gives_pure.mpr ⟨rfl, rfl⟩, hA, h⟩

theorem bind (h : Simulates A R y t x s)
    (hfg : ∀ b a t' s', Gives x s a s' → A b a → R t' s' → Simulates B R' (g b) t' (f a) s') :
    Simulates B R' (y >>= g) t (x >>= f) s := by
  intro c s'' hx
  obtain ⟨a, s', ha, hc⟩ := gives_bind.mp hx
  obtain ⟨b, t', hy, hA, hR⟩ := h a s' ha
  obtain ⟨c', t'', hg, hB, hR'⟩ := hfg b a t' s' ha hA hR c s'' hc
  exact ⟨c', t'', gives_bind.mpr ⟨b, t', hy, hg⟩, hB, hR'⟩

theorem read_bind {f : σ → Fallible ε σ α} {g : τ → Fallible ε τ α'}
    (h : Simulates A R (g t) t (f s) s) : Simulates A R (read >>= g) t (read >>= f) s := by
  intro a s' hx
  obtain ⟨b, t', hg, hR⟩ := h a s' (gives_read_bind.mp hx)
  exact ⟨b, t', gives_read_bind.mpr hg, hR⟩

theorem update_bind {u : σ → σ} {v : τ → τ} {f : Unit → Fallible ε σ α} {g : Unit → Fallible ε τ α'}
    (h : Simulates A R (g ()) (v t) (f ()) (u s)) :
    Simulates A R (update v >>= g) t (update u >>= f) s := by
  intro a s' hx
  obtain ⟨b, t', hg, hR⟩ := h a s' (gives_update_bind.mp hx)
  exact ⟨b, t', gives_update_bind.mpr hg, hR⟩

/-- a check of the one that holds, and that the other one passes then -/
theorem throwIf_bind {c d : Prop} [Decidable c] [Decidable d] {e e' : ε}
    {f : Unit → Fallible ε σ α} {g : Unit → Fallible ε τ α'}
    (h : ¬ c → ¬ d ∧ Simulates A R (g ()) t (f ()) s) :
    Simulates A R (throwIf d e' >>= g) t (throwIf c e >>= f) s := by
  intro a s' hx
  obtain ⟨hc, hf⟩ := gives_throwIf_bind.mp hx
  obtain ⟨hd, h⟩ := h hc
  obtain ⟨b, t', hg, hR⟩ := h a s' hf
  exact ⟨b, t', gives_throwIf_bind.mpr ⟨hd, hg⟩, hR⟩

/-- a part that does not look at the state -/
theorem settle_bind {γ : Type} {r r' : Except ε γ} {f : γ → Fallible ε σ α} {g : γ → Fallible ε τ α'}
    (h : ∀ c, r = .ok c → r' = .ok c ∧ Simulates A R (g c) t (f c) s) :
    Simulates A R (settle r' >>= g) t (settle r >>= f) s := by
  intro a s' hx
  obtain ⟨c, hc, hf⟩ := gives_settle_bind.mp hx
  obtain ⟨hr, h⟩ := h c hc
  obtain ⟨b, t', hg, hR⟩ := h a s' hf
  exact ⟨b, t', gives_settle_bind.mpr ⟨c, hr, hg⟩, hR⟩

/-- code about a part of the state -/
theorem zoom {σ' τ' : Type} {S : τ' → σ' → Prop} {get : σ → σ'} {put : σ' → σ → σ} {get' : τ → τ'}
    {put' : τ' → τ → τ} {x : Fallible ε σ' α} {y : Fallible ε τ' α'}
    (h : Simulates A S y (get' t) x (get s)) (hput : ∀ t' s', S t' s' → R (put' t' t) (put s' s)) :
    Simulates A R (Fallible.zoom get' put' y) t (Fallible.zoom get put x) s := by
  intro a s' hx
  obtain ⟨u, hu, rfl⟩ := gives_zoom.mp hx
  obtain ⟨b, v, hv, hA, hS⟩ := h a u hu
  exact ⟨b, put' v t, gives_zoom.mpr ⟨v, hv, rfl⟩, hA, hput v u hS⟩

theorem mapError {ε' : Type} {k k' : ε → ε'} (h : Simulates A R y t x s) :
    Simulates A R (Fallible.mapError k' y) t (Fallible.mapError k x) s := by
  intro a s' hx
  obtain ⟨b, t', hy, hrest⟩ := h a s' (gives_mapError.mp hx)
  exact ⟨b, t', gives_mapError.mpr hy, hrest⟩

end Simulates

namespace Replaces
variable {x : Fallible ε σ α} {y : Fallible ε τ α} {f : α → Fallible ε σ β} {g : α → Fallible ε τ β'}
  {s : σ} {t : τ}

protected theorem pure (h : R t s) (a : α) :
    Replaces R (pure a : Fallible ε τ α) t (pure a : Fallible ε σ α) s :=
  Simulates.pure rfl h

protected theorem settle (h : R t s) (r : Except ε α) :
    Replaces R (settle r : Fallible ε τ α) t (settle r : Fallible ε σ α) s := by
  intro a s' hx
  obtain ⟨hr, rfl⟩ := gives_settle.mp hx
  exact ⟨a, t, gives_settle.mpr ⟨hr, rfl⟩, rfl, h⟩

/-- the same program, from the same state -/
theorem same (x : Fallible ε σ α) {t : σ} (h : t = s) : Replaces Eq x t x s := by
  subst h
  exact fun a s' hx => ⟨a, s', hx, rfl, rfl⟩

theorem bind (h : Replaces R y t x s)
    (hfg : ∀ a t' s', Gives x s a s' → R t' s' → Simulates B R' (g a) t' (f a) s') :
    Simulates B R' (y >>= g) t (x >>= f) s :=
  Simulates.bind h fun _ a t' s' ha hb hR => hb ▸ hfg a t' s' ha hR

/-- every round, for what holds of the value that goes into it -/
theorem forEach (I : β → Prop) {f : Nat → α → β → Fallible ε σ β} {g : Nat → α → β → Fallible ε τ β}
    {l : List α} (hround : ∀ i a b t s, a ∈ l → I b → R t s → Replaces R (g i a b) t (f i a b) s)
    (hkeeps : ∀ i a b s b' s', a ∈ l → I b → Gives (f i a b) s b' s' → I b') (i : Nat) {b : β}
    (hb : I b) (h : R t s) :
    Replaces R (Fallible.forEach g i b l) t (Fallible.forEach f i b l) s := by
  induction l generalizing i b t s with
  | nil => exact Replaces.pure h b
  | cons a l ih =>
    refine bind (hround i a b t s List.mem_cons_self hb h) fun b' t' s' hgives hR => ?_
    exact ih (fun i a b t s ha => hround i a b t s (List.mem_cons_of_mem _ ha))
      (fun i a b s b' s' ha => hkeeps i a b s b' s' (List.mem_cons_of_mem _ ha)) (i + 1)
      (hkeeps i a b s b' s' List.mem_cons_self hb hgives) hR

end Replaces

/-- a loop that has no state, by what every round is told -/
theorem foldlM_of_rounds {f g : β → α → Except ε β} (I : β → Prop) {as : List α} {b c : β}
    (h : ∀ a ∈ as, ∀ b c, I b → f b a = .ok c → g b a = .ok c ∧ I c) (hb : I b)
    (hf : as.foldlM f b = .ok c) : as.foldlM g b = .ok c := by
  induction as generalizing b with
  | nil => exact hf
  | cons a as ih =>
    rw [List.foldlM_cons] at hf ⊢
    obtain ⟨b', hround, hrest⟩ := Outcome.bind_eq_ok.mp hf
    obtain ⟨hround', hb'⟩ := h a List.mem_cons_self b b' hb hround
    exact Outcome.bind_eq_ok.mpr
      ⟨b', hround', ih (fun a' ha' => h a' (List.mem_cons_of_mem _ ha')) hb' hrest⟩

end HyperMoE.Lib.Fallible
