import Mathlib.Init

/-!
# Runs of a partial step function

`step a s` is `none` where the action `a` cannot happen in the state `s`.

* `run step s as`       the state after the actions `as`, `none` if one of them could not happen;
* `Along step P s as`   `P` holds of every step of the run: the state before it, its action and the
                        state after it;
* `run_keeps`           what every admitted step keeps, a run keeps (the induction over runs);
* `run_invariant`       the same where every step is admitted;
* `along_of_keeps`      an invariant that settles `P` at every admitted step settles it along a run;
* `along_last`          what holds along a run holds of its last step;
* `along_congr`         two properties that agree at every step agree along a run;
* `length_le_of_lowers` a measure that each step lowers bounds the run;
* `run_map`             a map that commutes with the steps commutes with the runs.
-/

namespace HyperMoE.Lib.Runs

variable {α σ τ : Type} {step : α → σ → Option σ}

def run (step : α → σ → Option σ) (s : σ) : List α → Option σ
  | [] => some s
  | a :: as =>
    match step a s with
    | none => none
    | some s' => run step s' as

def Along (step : α → σ → Option σ) (P : σ → α → σ → Prop) (s : σ) : List α → Prop
  | [] => True
  | a :: as =>
    match step a s with
    | none => True
    | some s' => P s a s' ∧ Along step P s' as

instance instDecidableAlong {P : σ → α → σ → Prop} [∀ s a s', Decidable (P s a s')] (s : σ)
    (as : List α) : Decidable (Along step P s as) :=
  match as with
  | [] => .isTrue trivial
  | a :: as => by
    unfold Along
    cases step a s with
    | none => exact .isTrue trivial
    | some s' =>
      have := instDecidableAlong (P := P) s' as
      exact inferInstanceAs (Decidable (P s a s' ∧ Along step P s' as))

theorem run_cons {a : α} {s s' : σ} (as : List α) (h : step a s = some s') :
    run step s (a :: as) = run step s' as := by
  show (match step a s with
    | none => none
    | some s' => run step s' as) = _
  rw [h]

theorem along_cons {P : σ → α → σ → Prop} {a : α} {s s' : σ} {as : List α}
    (h : step a s = some s') (ha : Along step P s (a :: as)) : P s a s' ∧ Along step P s' as := by
  have h' : (match step a s with
    | none => True
    | some s' => P s a s' ∧ Along step P s' as) := ha
  rw [h] at h'
  exact h'

theorem run_keeps {C : σ → α → σ → Prop} {I : σ → Prop}
    (hI : ∀ s a s', step a s = some s' → C s a s' → I s → I s') (as : List α) (s t : σ)
    (hC : Along step C s as) (hs : I s) (h : run step s as = some t) : I t := by
  induction as generalizing s with
  | nil => exact Option.some.inj h ▸ hs
  | cons a as ih =>
    cases ha : step a s with
    | none =>
      have hn : run step s (a :: as) = none := by
        show (match step a s with
          | none => none
          | some s' => run step s' as) = _
        rw [ha]
      exact absurd (hn.symm.trans h) (by simp)
    | some s' =>
      obtain ⟨hc, hC'⟩ := along_cons ha hC
      exact ih s' hC' (hI s a s' ha hc hs) (run_cons as ha ▸ h)

/-- the last step of a run -/
theorem along_last {P : σ → α → σ → Prop} {as : List α} {a : α} {s t t' : σ}
    (hP : Along step P s (as ++ [a])) (hrun : run step s as = some t) (ha : step a t = some t') :
    P t a t' := by
  induction as generalizing s with
  | nil =>
    obtain rfl := Option.some.inj hrun
    exact (along_cons ha hP).1
  | cons b as ih =>
    cases hb : step b s with
    | none =>
      unfold run at hrun
      rw [hb] at hrun
      exact nomatch hrun
    | some s' => exact ih (along_cons hb hP).2 (run_cons as hb ▸ hrun)

theorem along_and {P Q : σ → α → σ → Prop} {as : List α} {s : σ} (hP : Along step P s as)
    (hQ : Along step Q s as) : Along step (fun s a s' => P s a s' ∧ Q s a s') s as := by
  induction as generalizing s with
  | nil => exact trivial
  | cons a as ih =>
    unfold Along
    split
    · exact trivial
    · next s' ha =>
      obtain ⟨hp, hP'⟩ := along_cons ha hP
      obtain ⟨hq, hQ'⟩ := along_cons ha hQ
      exact ⟨⟨hp, hq⟩, ih hP' hQ'⟩

theorem along_of_forall {P : α → Prop} {as : List α} (h : ∀ a ∈ as, P a) (s : σ) :
    Along step (fun _ a _ => P a) s as := by
  induction as generalizing s with
  | nil => exact trivial
  | cons a as ih =>
    unfold Along
    split
    · exact trivial
    · exact ⟨h a List.mem_cons_self, ih (fun b hb => h b (List.mem_cons_of_mem a hb)) _⟩

/-- the condition that excludes nothing -/
theorem along_true (as : List α) (s : σ) : Along step (fun _ _ _ => True) s as := by
  induction as generalizing s with
  | nil => exact trivial
  | cons a as ih =>
    unfold Along
    split
    · exact trivial
    · exact ⟨trivial, ih _⟩

theorem run_invariant {I : σ → Prop} (hI : ∀ s a s', step a s = some s' → I s → I s')
    {as : List α} {s t : σ} (hs : I s) (h : run step s as = some t) : I t :=
  run_keeps (fun s a s' ha _ => hI s a s' ha) as s t (along_true as s) hs h

theorem along_of_keeps {C P : σ → α → σ → Prop} {I : σ → Prop}
    (hI : ∀ s a s', step a s = some s' → C s a s' → I s → I s')
    (hP : ∀ s a s', step a s = some s' → C s a s' → I s → P s a s') (as : List α) (s : σ)
    (hC : Along step C s as) (hs : I s) : Along step P s as := by
  induction as generalizing s with
  | nil => exact trivial
  | cons a as ih =>
    unfold Along
    split
    · exact trivial
    · next s' ha =>
      obtain ⟨hc, hC'⟩ := along_cons ha hC
      exact ⟨hP s a s' ha hc hs, ih s' hC' (hI s a s' ha hc hs)⟩

theorem along_congr {P Q : σ → α → σ → Prop}
    (h : ∀ s a s', step a s = some s' → (P s a s' ↔ Q s a s')) (as : List α) (s : σ) :
    Along step P s as ↔ Along step Q s as := by
  induction as generalizing s with
  | nil => exact Iff.rfl
  | cons a as ih =>
    unfold Along
    cases ha : step a s with
    | none => exact Iff.rfl
    | some s' => exact and_congr (h s a s' ha) (ih s')

theorem length_le_of_lowers {Q : α → Prop} {μ : σ → Nat}
    (hμ : ∀ s a s', step a s = some s' → Q a → μ s' < μ s) (as : List α) (s t : σ)
    (hQ : ∀ a ∈ as, Q a) (h : run step s as = some t) : as.length + μ t ≤ μ s := by
  induction as generalizing s with
  | nil =>
    obtain rfl := Option.some.inj h
    exact Nat.le_of_eq (Nat.zero_add _)
  | cons a as ih =>
    cases ha : step a s with
    | none =>
      unfold run at h
      rw [ha] at h
      cases h
    | some s' =>
      have hlow := hμ s a s' ha (hQ a List.mem_cons_self)
      have hrest := ih s' (fun b hb => hQ b (List.mem_cons_of_mem a hb)) (run_cons as ha ▸ h)
      rw [List.length_cons]
      omega

theorem run_map {C : σ → α → σ → Prop} {step' : α → τ → Option τ} {f : σ → τ}
    (hf : ∀ s a, (∀ s', step a s = some s' → C s a s') → (step a s).map f = step' a (f s))
    (as : List α) (s : σ) (hC : Along step C s as) :
    (run step s as).map f = run step' (f s) as := by
  induction as generalizing s with
  | nil => rfl
  | cons a as ih =>
    have h := hf s a fun s' ha => (along_cons ha hC).1
    unfold run
    rw [← h]
    cases ha : step a s with
    | none => rfl
    | some s' => exact ih s' (along_cons ha hC).2

end HyperMoE.Lib.Runs
