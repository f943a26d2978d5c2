import HyperMoE.Lib.Fallible

/-!
# Programs on the image of a state

`f : σ → τ` forgets a part of the state (or renames it).  `Maps f x y s`: the program `y`, run from
`f s`, has the outcome of `x` run from `s`, and it ends in the image of the state in which `x` ends.

The lemmas follow the constructs of the language: `Maps.bind` cuts at a semicolon, `Maps.read` is
the one place where the two programs see different states.
-/

namespace HyperMoE.Lib.Fallible

variable {ε σ τ α β : Type}

def Maps (f : σ → τ) (x : Fallible ε σ α) (y : Fallible ε τ α) (s : σ) : Prop :=
  y.exec (f s) = ((x.exec s).1, f (x.exec s).2)

namespace Maps

variable {f : σ → τ} {s : σ}

theorem pure (a : α) : Maps f (Pure.pure a : Fallible ε σ α) (Pure.pure a) s := rfl

theorem throw (e : ε) : Maps f (throw e : Fallible ε σ α) (throw e) s := rfl

theorem update {g : σ → σ} {h : τ → τ} (H : h (f s) = f (g s)) :
    Maps f (Fallible.update g : Fallible ε σ Unit) (Fallible.update h) s := by
  show (Except.ok (), h (f s)) = (Except.ok (), f (g s))
  rw [H]

theorem updateGet {g : σ → α × σ} {h : τ → α × τ} (H : h (f s) = ((g s).1, f (g s).2)) :
    Maps f (Fallible.updateGet g : Fallible ε σ α) (Fallible.updateGet h) s := by
  show (Except.ok (h (f s)).1, (h (f s)).2) = _
  rw [H]
  rfl

theorem bind {x : Fallible ε σ α} {y : Fallible ε τ α} {k : α → Fallible ε σ β}
    {k' : α → Fallible ε τ β} (h : Maps f x y s)
    (hk : ∀ a s', x.exec s = (.ok a, s') → Maps f (k a) (k' a) s') :
    Maps f (x >>= k) (y >>= k') s := by
  unfold Maps at h ⊢
  rw [exec_bind, exec_bind, h]
  cases hx : x.exec s with
  | mk r s' =>
    cases r with
    | ok a => exact hk a s' hx
    | error e => rfl

/-- two updates that need not correspond, and what follows them -/
theorem update_bind {g : σ → σ} {h : τ → τ} {k : Unit → Fallible ε σ β}
    {k' : Unit → Fallible ε τ β} :
    Maps f (Fallible.update g >>= k) (Fallible.update h >>= k') s ↔
      (k' ()).exec (h (f s)) = (((k ()).exec (g s)).1, f ((k ()).exec (g s)).2) := by
  unfold Maps
  rw [exec_bind, exec_bind]
  exact Iff.rfl

/-- the state is read: the two programs go on with their own -/
theorem read {k : σ → Fallible ε σ β} {k' : τ → Fallible ε τ β} (h : Maps f (k s) (k' (f s)) s) :
    Maps f (Fallible.read >>= k) (Fallible.read >>= k') s := by
  unfold Maps at h ⊢
  rw [exec_bind, exec_bind]
  exact h

/-- the guard, and what it lets through -/
theorem guard {c d : Prop} [Decidable c] [Decidable d] {k : Unit → Fallible ε σ β}
    {k' : Unit → Fallible ε τ β} (h : c ↔ d) (e : ε) (hk : ¬ c → Maps f (k ()) (k' ()) s) :
    Maps f (Fallible.throwIf c e >>= k) (Fallible.throwIf d e >>= k') s := by
  unfold Fallible.throwIf
  by_cases hc : c
  · rw [if_pos hc, if_pos (h.mp hc)]
    exact throw e
  · rw [if_neg hc, if_neg fun hd => hc (h.mpr hd)]
    exact hk hc

theorem ite {c d : Prop} [Decidable c] [Decidable d] {x x' : Fallible ε σ α}
    {y y' : Fallible ε τ α} (h : c ↔ d) (hx : Maps f x y s) (hx' : Maps f x' y' s) :
    Maps f (if c then x else x') (if d then y else y') s := by
  by_cases hc : c
  · rw [if_pos hc, if_pos (h.mp hc)]
    exact hx
  · rw [if_neg hc, if_neg fun hd => hc (h.mpr hd)]
    exact hx'

theorem tryCatch {x : Fallible ε σ α} {y : Fallible ε τ α} {k : ε → Fallible ε σ α}
    {k' : ε → Fallible ε τ α} (h : Maps f x y s) (hk : ∀ e s', Maps f (k e) (k' e) s') :
    Maps f (tryCatch x k) (tryCatch y k') s := by
  unfold Maps at h ⊢
  rw [exec_tryCatch, exec_tryCatch, h]
  cases hx : x.exec s with
  | mk r s' =>
    cases r with
    | ok a => rfl
    | error e => exact hk e s'

/-- code about a part that `f` keeps -/
theorem zoom {ρ : Type} {get : σ → ρ} {put : ρ → σ → σ} {get' : τ → ρ} {put' : ρ → τ → τ}
    (x : Fallible ε ρ α) (hg : get' (f s) = get s) (hp : ∀ r, put' r (f s) = f (put r s)) :
    Maps f (Fallible.zoom get put x) (Fallible.zoom get' put' x) s := by
  show ((x (get' (f s))).1, put' (x (get' (f s))).2 (f s)) =
    ((x (get s)).1, f (put (x (get s)).2 s))
  rw [hg, hp]

end Maps

end HyperMoE.Lib.Fallible
