import Mathlib.Init

/-!
# Fallible stateful code

Code that reads and changes a state, and either returns or throws; what it changed before a throw
stays changed (no rollback), as in a language with mutable objects and exceptions.

* `Fallible ε σ α`   the programs, with `do` notation, `throw` and `try ... catch`;
* `wp x Q s`         `Q` holds of the outcome and of the final state of `x` run from `s`;
* `zoom get put x`   `x`, written for a part of the state, run on the whole state;
* `forEach f`        a loop over a list, with the position of each element;
* `Gives x s a s'`   `x` run from `s` returns `a` and leaves `s'`;
* `Throws x P`       whatever `x` throws is in `P`;
* `Leaves f x`       `x` changes nothing about the part `f` of the state.

The `wp_*` lemmas are a simp set that runs a program symbolically; `wp_mono` cuts a run at a call
whose specification is known.
-/

namespace HyperMoE.Lib

variable {ε σ α β : Type}

abbrev Fallible (ε σ : Type) : Type → Type := ExceptT ε (StateM σ)

namespace Fallible

/-- run from `s`: the outcome and the final state -/
def exec (x : Fallible ε σ α) (s : σ) : Except ε α × σ := x s

/-- the state, read as it is now -/
def read : Fallible ε σ σ := fun s => (.ok s, s)

/-- one update of the state -/
def update (f : σ → σ) : Fallible ε σ Unit := fun s => (.ok (), f s)

/-- a computed update that also answers -/
def updateGet (f : σ → α × σ) : Fallible ε σ α := fun s => (.ok (f s).1, (f s).2)

/-- `if (c) throw e;` -/
def throwIf (c : Prop) [Decidable c] (e : ε) : Fallible ε σ Unit :=
  if c then throw e else pure ()

/-- `if (!x) throw e;` on an optional value, which is then read -/
def orThrow (x : Option α) (e : ε) : Fallible ε σ α :=
  match x with
  | some a => pure a
  | none => throw e

/-- the outcome of code run elsewhere: a value, or an exception that is thrown again here -/
def settle (r : Except ε α) : Fallible ε σ α := fun s => (r, s)

/-- the exceptions of `x` under another type -/
def mapError {ε' : Type} (f : ε → ε') (x : Fallible ε σ α) : Fallible ε' σ α :=
  fun s => ((x s).1.mapError f, (x s).2)

/-- code about a part `τ` of the state, run on the whole state -/
def zoom {τ : Type} (get : σ → τ) (put : τ → σ → σ) (x : Fallible ε τ α) : Fallible ε σ α :=
  fun s => ((x (get s)).1, put (x (get s)).2 s)

/-- `for (i = ...; a : as) b = f(i, a, b);` -/
def forEach (f : Nat → α → β → Fallible ε σ β) (i : Nat) (b : β) : List α → Fallible ε σ β
  | [] => pure b
  | a :: as => do
    let b ← f i a b
    forEach f (i + 1) b as

/-! ## weakest preconditions -/

def wp (x : Fallible ε σ α) (Q : Except ε α → σ → Prop) (s : σ) : Prop :=
  Q (x.exec s).1 (x.exec s).2

variable {Q Q' : Except ε α → σ → Prop} {s : σ}

theorem wp_def {x : Fallible ε σ α} : wp x Q s ↔ Q (x.exec s).1 (x.exec s).2 := Iff.rfl

theorem wp_mono {x : Fallible ε σ α} (h : wp x Q s) (hQ : ∀ r s', Q r s' → Q' r s') :
    wp x Q' s := hQ _ _ h

theorem wp_and {x : Fallible ε σ α} (h : wp x Q s) (h' : wp x Q' s) :
    wp x (fun r s' => Q r s' ∧ Q' r s') s := ⟨h, h'⟩

@[simp] theorem wp_pure (a : α) : wp (pure a : Fallible ε σ α) Q s ↔ Q (.ok a) s := Iff.rfl

@[simp] theorem wp_throw (e : ε) : wp (throw e : Fallible ε σ α) Q s ↔ Q (.error e) s := Iff.rfl

@[simp] theorem wp_settle (r : Except ε α) :
    wp (settle r : Fallible ε σ α) Q s ↔ Q r s := Iff.rfl

@[simp] theorem wp_read {Q : Except ε σ → σ → Prop} :
    wp (read : Fallible ε σ σ) Q s ↔ Q (.ok s) s := Iff.rfl

@[simp] theorem wp_update {Q : Except ε Unit → σ → Prop} (f : σ → σ) :
    wp (update f : Fallible ε σ Unit) Q s ↔ Q (.ok ()) (f s) := Iff.rfl

@[simp] theorem wp_updateGet (f : σ → α × σ) :
    wp (updateGet f : Fallible ε σ α) Q s ↔ Q (.ok (f s).1) (f s).2 := Iff.rfl

@[simp] theorem wp_zoom {τ : Type} (get : σ → τ) (put : τ → σ → σ) (x : Fallible ε τ α) :
    wp (zoom get put x) Q s ↔ wp x (fun r t => Q r (put t s)) (get s) := Iff.rfl

theorem wp_mapError {ε' : Type} {f : ε → ε'} {x : Fallible ε σ α} {Q : Except ε' α → σ → Prop}
    (h : wp x (fun r s' => match r with
      | .ok a => Q (.ok a) s'
      | .error e => Q (.error (f e)) s') s) : wp (mapError f x) Q s := by
  unfold wp at h
  show Q ((x.exec s).1.mapError f) (x.exec s).2
  cases hr : (x.exec s).1 with
  | ok a =>
    rw [hr] at h
    exact h
  | error e =>
    rw [hr] at h
    exact h

theorem wp_settle_mapError {ε' : Type} {f : ε → ε'} {r : Except ε α} {Q : Except ε' α → σ → Prop}
    (hok : ∀ a, r = .ok a → Q (.ok a) s) (herror : ∀ e, r = .error e → Q (.error (f e)) s) :
    wp (settle (r.mapError f)) Q s := by
  cases r with
  | ok a => exact hok a rfl
  | error e => exact herror e rfl

theorem exec_bind (x : Fallible ε σ α) (f : α → Fallible ε σ β) :
    (x >>= f).exec s = match x.exec s with
      | (.ok a, s') => (f a).exec s'
      | (.error e, s') => (.error e, s') := by
  show (ExceptT.bind x f) s = _
  unfold ExceptT.bind exec
  show ExceptT.bindCont f (x s).1 (x s).2 = _
  cases h : x s with
  | mk r s' => cases r <;> rfl

@[simp] theorem wp_bind {Q : Except ε β → σ → Prop} (x : Fallible ε σ α)
    (f : α → Fallible ε σ β) :
    wp (x >>= f) Q s ↔ wp x (fun r s' => match r with
      | .ok a => wp (f a) Q s'
      | .error e => Q (.error e) s') s := by
  unfold wp
  rw [exec_bind]
  cases h : x.exec s with
  | mk r s' => cases r <;> rfl

/-- sequential composition, cut at a known specification `R` of the first part -/
theorem wp_seq {x : Fallible ε σ α} {f : α → Fallible ε σ β} {R : Except ε α → σ → Prop}
    {Q : Except ε β → σ → Prop} (h : wp x R s) (hok : ∀ a s', R (.ok a) s' → wp (f a) Q s')
    (he : ∀ e s', R (.error e) s' → Q (.error e) s') : wp (x >>= f) Q s := by
  rw [wp_bind]
  refine wp_mono h fun r s' hr => ?_
  cases r with
  | ok a => exact hok a s' hr
  | error e => exact he e s' hr

theorem exec_tryCatch (x : Fallible ε σ α) (f : ε → Fallible ε σ α) :
    (tryCatch x f).exec s = match x.exec s with
      | (.ok a, s') => (.ok a, s')
      | (.error e, s') => (f e).exec s' := by
  show (ExceptT.tryCatch x f) s = _
  unfold ExceptT.tryCatch exec
  show (match (x s).1 with
    | .ok a => (pure (.ok a) : StateM σ (Except ε α))
    | .error e => f e) (x s).2 = _
  cases h : x s with
  | mk r s' => cases r <;> rfl

@[simp] theorem wp_tryCatch (x : Fallible ε σ α) (f : ε → Fallible ε σ α) :
    wp (tryCatch x f) Q s ↔ wp x (fun r s' => match r with
      | .ok a => Q (.ok a) s'
      | .error e => wp (f e) Q s') s := by
  unfold wp
  rw [exec_tryCatch]
  cases h : x.exec s with
  | mk r s' => cases r <;> rfl

@[simp] theorem wp_throwIf {Q : Except ε Unit → σ → Prop} (c : Prop) [Decidable c] (e : ε) :
    wp (throwIf c e : Fallible ε σ Unit) Q s ↔ if c then Q (.error e) s else Q (.ok ()) s := by
  unfold throwIf
  split <;> exact Iff.rfl

@[simp] theorem wp_orThrow (x : Option α) (e : ε) :
    wp (orThrow x e : Fallible ε σ α) Q s ↔ match x with
      | some a => Q (.ok a) s
      | none => Q (.error e) s := by
  cases x <;> exact Iff.rfl

theorem exec_throwIf_bind (c : Prop) [Decidable c] (e : ε) (f : Unit → Fallible ε σ β) :
    (throwIf c e >>= f).exec s = if c then (.error e, s) else (f ()).exec s := by
  rw [exec_bind]
  unfold throwIf
  by_cases h : c
  · rw [if_pos h, if_pos h]
    rfl
  · rw [if_neg h, if_neg h]
    rfl

/-- the handler, cut at a known specification of the guarded part -/
theorem wp_catch {x : Fallible ε σ α} {f : ε → Fallible ε σ α} {R : Except ε α → σ → Prop}
    (h : wp x R s) (hok : ∀ a s', R (.ok a) s' → Q (.ok a) s')
    (he : ∀ e s', R (.error e) s' → wp (f e) Q s') : wp (tryCatch x f) Q s := by
  rw [wp_tryCatch]
  refine wp_mono h fun r s' hr => ?_
  cases r with
  | ok a => exact hok a s' hr
  | error e => exact he e s' hr

/-- a loop, by an invariant about the elements it has seen -/
theorem wp_forEach {I : List α → β → σ → Prop} {E : ε → σ → Prop} {f : Nat → α → β → Fallible ε σ β}
    {as : List α} (hstep : ∀ seen a todo b s, as = seen ++ a :: todo → I seen b s →
      wp (f seen.length a b) (fun r s' => match r with
        | .ok b' => I (seen ++ [a]) b' s'
        | .error e => E e s') s) {b : β} (h : I [] b s) :
    wp (forEach f 0 b as) (fun r s' => match r with
      | .ok b' => I as b' s'
      | .error e => E e s') s := by
  have hloop : ∀ todo seen b s, as = seen ++ todo → I seen b s →
      wp (forEach f seen.length b todo) (fun r s' => match r with
        | .ok b' => I as b' s'
        | .error e => E e s') s := by
    intro todo
    induction todo with
    | nil =>
      intro seen b s hs hI
      rw [List.append_nil] at hs
      exact hs ▸ hI
    | cons a todo ih =>
      intro seen b s hs hI
      refine wp_seq (hstep seen a todo b s hs hI) (fun b' s' hI' => ?_) fun e s' he => he
      have h' := ih (seen ++ [a]) b' s' (by rw [hs, List.append_assoc]; rfl) hI'
      rw [List.length_append] at h'
      exact h'
  exact hloop as [] b s rfl h

/-! ## runs that return -/

/-- `x` run from `s` returns `a` and leaves `s'` -/
def Gives (x : Fallible ε σ α) (s : σ) (a : α) (s' : σ) : Prop := x.exec s = (.ok a, s')

section Gives
variable {x : Fallible ε σ α} {s'' : σ} {a : α} {s' : σ}

theorem gives_pure {b : α} : Gives (pure b : Fallible ε σ α) s a s' ↔ b = a ∧ s = s' := by
  constructor
  · intro h
    exact ⟨Except.ok.inj (congrArg Prod.fst h), congrArg Prod.snd h⟩
  · rintro ⟨rfl, rfl⟩
    rfl

theorem gives_settle {r : Except ε α} :
    Gives (settle r : Fallible ε σ α) s a s' ↔ r = .ok a ∧ s = s' := Prod.mk.injEq _ _ _ _ ▸ Iff.rfl

theorem gives_read {s₀ : σ} : Gives (read : Fallible ε σ σ) s s₀ s' ↔ s = s₀ ∧ s = s' := by
  constructor
  · intro h
    exact ⟨Except.ok.inj (congrArg Prod.fst h), congrArg Prod.snd h⟩
  · rintro ⟨rfl, rfl⟩
    rfl

theorem gives_update {f : σ → σ} {u : Unit} :
    Gives (update f : Fallible ε σ Unit) s u s' ↔ f s = s' :=
  ⟨fun h => congrArg Prod.snd h, fun h => Prod.ext rfl h⟩

theorem gives_throwIf {c : Prop} [Decidable c] {e : ε} {u : Unit} :
    Gives (throwIf c e : Fallible ε σ Unit) s u s' ↔ ¬ c ∧ s = s' := by
  unfold throwIf
  split
  · next hc => exact ⟨fun h => (nomatch congrArg Prod.fst h), fun h => absurd hc h.1⟩
  · next hc =>
    rw [gives_pure]
    exact ⟨fun h => ⟨hc, h.2⟩, fun h => ⟨rfl, h.2⟩⟩

theorem gives_zoom {τ : Type} {get : σ → τ} {put : τ → σ → σ} {x : Fallible ε τ α} :
    Gives (zoom get put x) s a s' ↔ ∃ t, Gives x (get s) a t ∧ put t s = s' := by
  constructor
  · intro h
    have hfst : (x.exec (get s)).1 = .ok a := congrArg Prod.fst h
    exact ⟨(x.exec (get s)).2, Prod.ext hfst rfl, congrArg Prod.snd h⟩
  · rintro ⟨t, h, rfl⟩
    have h' : x (get s) = (.ok a, t) := h
    show ((x (get s)).1, put (x (get s)).2 s) = _
    rw [h']

theorem gives_mapError {ε' : Type} {f : ε → ε'} : Gives (mapError f x) s a s' ↔ Gives x s a s' := by
  show ((x.exec s).1.mapError f, (x.exec s).2) = (Except.ok a, s') ↔ x.exec s = (.ok a, s')
  cases hx : x.exec s with
  | mk r t =>
    cases r with
    | ok b =>
      show (Except.ok b, t) = (Except.ok a, s') ↔ (Except.ok b, t) = (Except.ok a, s')
      simp only [Prod.mk.injEq, Except.ok.injEq]
    | error e =>
      show (Except.error (f e), t) = (Except.ok a, s') ↔ (Except.error e, t) = (Except.ok a, s')
      simp only [Prod.mk.injEq, reduceCtorEq, false_and]

theorem gives_bind {f : α → Fallible ε σ β} {b : β} :
    Gives (x >>= f) s b s'' ↔ ∃ a s', Gives x s a s' ∧ Gives (f a) s' b s'' := by
  unfold Gives
  rw [exec_bind]
  cases h : x.exec s with
  | mk r s' =>
    cases r with
    | error e =>
      constructor
      · intro h'
        exact nomatch congrArg Prod.fst h'
      · rintro ⟨a, s', h', -⟩
        exact nomatch congrArg Prod.fst h'
    | ok a =>
      constructor
      · intro h'
        exact ⟨a, s', rfl, h'⟩
      · rintro ⟨a', s₁, h', h''⟩
        obtain ⟨ha, rfl⟩ := Prod.mk.inj h'
        obtain rfl := Except.ok.inj ha
        exact h''

theorem gives_read_bind {f : σ → Fallible ε σ β} {b : β} :
    Gives (read >>= f) s b s'' ↔ Gives (f s) s b s'' := by
  rw [gives_bind]
  constructor
  · rintro ⟨_, _, hread, h⟩
    obtain ⟨rfl, rfl⟩ := gives_read.mp hread
    exact h
  · intro h
    exact ⟨s, s, gives_read.mpr ⟨rfl, rfl⟩, h⟩

theorem gives_update_bind {g : σ → σ} {f : Unit → Fallible ε σ β} {b : β} :
    Gives (update g >>= f) s b s'' ↔ Gives (f ()) (g s) b s'' := by
  rw [gives_bind]
  constructor
  · rintro ⟨_, _, hupdate, h⟩
    obtain rfl := gives_update.mp hupdate
    exact h
  · intro h
    exact ⟨(), g s, gives_update.mpr rfl, h⟩

theorem gives_throwIf_bind {c : Prop} [Decidable c] {e : ε} {f : Unit → Fallible ε σ β} {b : β} :
    Gives (throwIf c e >>= f) s b s'' ↔ ¬ c ∧ Gives (f ()) s b s'' := by
  rw [gives_bind]
  constructor
  · rintro ⟨_, _, hguard, h⟩
    obtain ⟨hc, rfl⟩ := gives_throwIf.mp hguard
    exact ⟨hc, h⟩
  · rintro ⟨hc, h⟩
    exact ⟨(), s, gives_throwIf.mpr ⟨hc, rfl⟩, h⟩

theorem gives_settle_bind {r : Except ε α} {f : α → Fallible ε σ β} {b : β} :
    Gives (settle r >>= f) s b s'' ↔ ∃ a, r = .ok a ∧ Gives (f a) s b s'' := by
  rw [gives_bind]
  constructor
  · rintro ⟨a, _, hsettle, h⟩
    obtain ⟨hr, rfl⟩ := gives_settle.mp hsettle
    exact ⟨a, hr, h⟩
  · rintro ⟨a, hr, h⟩
    exact ⟨a, s, gives_settle.mpr ⟨hr, rfl⟩, h⟩

theorem gives_ok_bind {f : α → Fallible ε σ β} {b : β} :
    Gives (settle (.ok a) >>= f) s b s'' ↔ Gives (f a) s b s'' := Iff.rfl

/-- a part that answers `a`, if it returns at all -/
theorem gives_known_bind {r : Except ε α} {f : α → Fallible ε σ β} {b : β} {a : α} {P : Prop}
    (h : ∀ a', r = .ok a' ↔ P ∧ a' = a) :
    Gives (settle r >>= f) s b s'' ↔ P ∧ Gives (f a) s b s'' := by
  rw [gives_settle_bind]
  constructor
  · rintro ⟨a', hr, hb⟩
    obtain ⟨hP, rfl⟩ := (h a').mp hr
    exact ⟨hP, hb⟩
  · rintro ⟨hP, hb⟩
    exact ⟨a, (h a).mpr ⟨hP, rfl⟩, hb⟩

/-- a loop, by an invariant about the elements it has seen -/
theorem gives_forEach {I : List α → β → σ → Prop} {f : Nat → α → β → Fallible ε σ β} {l : List α}
    (hstep : ∀ seen a todo b s b' s', l = seen ++ a :: todo → I seen b s →
      Gives (f seen.length a b) s b' s' → I (seen ++ [a]) b' s') {b b' : β} {s s' : σ}
    (h₀ : I [] b s) (h : Gives (forEach f 0 b l) s b' s') : I l b' s' := by
  have hloop := wp_forEach (E := fun (_ : ε) (_ : σ) => True) (fun seen a todo b s hl hI => by
    unfold wp
    cases hx : (f seen.length a b).exec s with
    | mk r t =>
      cases r with
      | ok c => exact hstep seen a todo b s c t hl hI hx
      | error e => trivial) h₀
  unfold wp at hloop
  rw [show (forEach f 0 b l).exec s = _ from h] at hloop
  exact hloop

end Gives

/-! ## what code returns -/

/-- whenever `x` returns, its answer is in `P` -/
def Returns (x : Fallible ε σ α) (P : α → Prop) : Prop := ∀ s, wp x (fun r _ => ∀ a, r = .ok a → P a) s

section Returns
variable {x : Fallible ε σ α} {P : α → Prop}

theorem Returns.mono {P' : α → Prop} (h : Returns x P) (hP : ∀ a, P a → P' a) : Returns x P' :=
  fun s => wp_mono (h s) fun _ _ hr a ha => hP a (hr a ha)

theorem Returns.bind {f : α → Fallible ε σ β} {P' : β → Prop} (h : Returns x P)
    (hf : ∀ a, P a → Returns (f a) P') : Returns (x >>= f) P' := by
  intro s
  refine wp_seq (h s) (fun a s' ha => ?_) fun e s' _ a ha => nomatch ha
  exact hf a (ha a rfl) s'

theorem Returns.and {P' : α → Prop} (h : Returns x P) (h' : Returns x P') :
    Returns x fun a => P a ∧ P' a := fun s a ha => ⟨h s a ha, h' s a ha⟩

theorem Returns.mapError {ε' : Type} {f : ε → ε'} (h : Returns x P) : Returns (mapError f x) P := by
  intro s
  refine wp_mapError (wp_mono (h s) fun r s' hr => ?_)
  cases r with
  | ok a => exact fun a' ha => Except.ok.inj ha ▸ hr a rfl
  | error e => exact fun a ha => nomatch ha

/-- a part whose answer does not matter -/
theorem Returns.then {f : α → Fallible ε σ β} {P' : β → Prop} (hf : ∀ a, Returns (f a) P') :
    Returns (x >>= f) P' := by
  have h : Returns x fun _ => True := fun _ _ _ => trivial
  exact h.bind fun a _ => hf a

protected theorem Returns.pure {a : α} (h : P a) : Returns (pure a : Fallible ε σ α) P :=
  fun _ _ ha => Except.ok.inj ha ▸ h

theorem Returns.guard {c : Prop} [Decidable c] {e : ε} {f : Unit → Fallible ε σ α}
    (h : ¬ c → Returns (f ()) P) : Returns (throwIf c e >>= f) P := by
  intro s
  rw [wp_bind, wp_throwIf]
  split
  · exact fun a ha => nomatch ha
  · next hc => exact h hc s

theorem returns_throwIf (c : Prop) [Decidable c] (e : ε) :
    Returns (throwIf c e : Fallible ε σ Unit) fun _ => ¬ c := by
  intro s
  rw [wp_throwIf]
  split
  · exact fun a ha => nomatch ha
  · next hc => exact fun _ _ => hc

theorem returns_orThrow (x : Option α) (e : ε) :
    Returns (orThrow x e : Fallible ε σ α) fun a => x = some a := by
  intro s
  rw [wp_orThrow]
  cases x with
  | none => exact fun a ha => nomatch ha
  | some b => exact fun a ha => congrArg some (Except.ok.inj ha)

/-- a loop, by an invariant about the elements it has seen -/
theorem Returns.forEach {I : List α → β → Prop} {f : Nat → α → β → Fallible ε σ β} {l : List α}
    (hstep : ∀ seen a todo b, l = seen ++ a :: todo → I seen b →
      Returns (f seen.length a b) fun b' => I (seen ++ [a]) b') {b : β} (h : I [] b) :
    Returns (Fallible.forEach f 0 b l) (I l) := by
  intro s
  have hloop := wp_forEach (I := fun seen b (_ : σ) => I seen b) (E := fun (_ : ε) (_ : σ) => True)
    (fun seen a todo b s hs hb => wp_mono (hstep seen a todo b hs hb s)
      fun r s' hr => by cases r with
        | ok b' => exact hr b' rfl
        | error e => trivial) (s := s) h
  refine wp_mono hloop fun r s' hr a ha => ?_
  subst ha
  exact hr

end Returns

/-! ## what code throws -/

/-- whenever `x` throws, its exception is in `P` -/
def Throws (x : Fallible ε σ α) (P : ε → Prop) : Prop :=
  ∀ s, wp x (fun r _ => ∀ e, r = .error e → P e) s

section Throws
variable {x : Fallible ε σ α} {P : ε → Prop}

theorem Throws.bind {f : α → Fallible ε σ β} (hx : Throws x P) (hf : ∀ a, Throws (f a) P) :
    Throws (x >>= f) P := by
  intro s
  refine wp_seq (hx s) (fun a s' _ => hf a s') fun e s' h e' he => ?_
  exact h e' (congrArg Except.error (Except.error.inj he))

theorem Throws.catch {P' : ε → Prop} {g : ε → Fallible ε σ α} (hx : Throws x P')
    (hg : ∀ e, P' e → Throws (g e) P) : Throws (tryCatch x g) P := by
  intro s
  exact wp_catch (hx s) (fun _ _ _ _ he => nomatch he) fun e s' h => hg e (h e rfl) s'

theorem throws_pure (a : α) : Throws (pure a : Fallible ε σ α) P := fun _ _ h => nomatch h

theorem throws_read : Throws (read : Fallible ε σ σ) P := fun _ _ h => nomatch h

theorem throws_update (f : σ → σ) : Throws (update f : Fallible ε σ Unit) P :=
  fun _ _ h => nomatch h

theorem throws_updateGet (f : σ → α × σ) : Throws (updateGet f : Fallible ε σ α) P :=
  fun _ _ h => nomatch h

theorem throws_throw {e : ε} (h : P e) : Throws (throw e : Fallible ε σ α) P :=
  fun _ _ he => Except.error.inj he ▸ h

theorem throws_settle {r : Except ε α} (h : ∀ e, r = .error e → P e) :
    Throws (settle r : Fallible ε σ α) P := fun _ => h

theorem throws_ite (c : Prop) [Decidable c] {y : Fallible ε σ α} (hx : Throws x P)
    (hy : Throws y P) : Throws (if c then x else y) P := by
  split
  · exact hx
  · exact hy

theorem throws_throwIf (c : Prop) [Decidable c] {e : ε} (h : P e) :
    Throws (throwIf c e : Fallible ε σ Unit) P := by
  unfold throwIf
  exact throws_ite c (throws_throw h) (throws_pure ())

theorem throws_orThrow (a : Option α) {e : ε} (h : P e) :
    Throws (orThrow a e : Fallible ε σ α) P := by
  cases a with
  | none => exact throws_throw h
  | some a => exact throws_pure a

theorem throws_zoom {τ : Type} {get : σ → τ} {put : τ → σ → σ} {y : Fallible ε τ α}
    (h : Throws y P) : Throws (zoom get put y) P := fun s => h (get s)

end Throws

/-! ## what code leaves alone -/

/-- whatever comes of `x`, the part `f` of the state is as it was -/
def Leaves {τ : Type} (f : σ → τ) (x : Fallible ε σ α) : Prop := ∀ s, f (x.exec s).2 = f s

section Leaves
variable {τ υ : Type} {f : σ → τ} {x : Fallible ε σ α}

theorem Leaves.bind {g : α → Fallible ε σ β} (hx : Leaves f x) (hg : ∀ a, Leaves f (g a)) :
    Leaves f (x >>= g) := by
  intro s
  rw [exec_bind]
  have h := hx s
  cases hr : x.exec s with
  | mk r s' =>
    rw [hr] at h
    cases r with
    | ok a => exact (hg a s').trans h
    | error e => exact h

theorem Leaves.catch {g : ε → Fallible ε σ α} (hx : Leaves f x) (hg : ∀ e, Leaves f (g e)) :
    Leaves f (tryCatch x g) := by
  intro s
  rw [exec_tryCatch]
  have h := hx s
  cases hr : x.exec s with
  | mk r s' =>
    rw [hr] at h
    cases r with
    | ok a => exact h
    | error e => exact (hg e s').trans h

theorem leaves_read : Leaves f (read : Fallible ε σ σ) := fun _ => rfl

theorem leaves_pure (a : α) : Leaves f (pure a : Fallible ε σ α) := fun _ => rfl

theorem leaves_update {g : σ → σ} (h : ∀ s, f (g s) = f s) : Leaves f (update g : Fallible ε σ Unit) :=
  h

theorem leaves_ite (c : Prop) [Decidable c] {x y : Fallible ε σ α} (hx : Leaves f x)
    (hy : Leaves f y) : Leaves f (if c then x else y) := by
  split
  · exact hx
  · exact hy

theorem leaves_zoom {get : σ → υ} {put : υ → σ → σ} (h : ∀ t s, f (put t s) = f s)
    (x : Fallible ε υ α) : Leaves f (zoom get put x) := fun s => h _ s

end Leaves

theorem wp_ite (c : Prop) [Decidable c] (x y : Fallible ε σ α) :
    wp (if c then x else y) Q s ↔ if c then wp x Q s else wp y Q s := by
  split <;> exact Iff.rfl

end Fallible

end HyperMoE.Lib
