import Mathlib.Algebra.Order.Ring.Nat
import Mathlib.Data.List.Nodup
import Mathlib.Data.List.Perm.Basic

/-!
# Items handed on once

Items are accepted and wait; some worker takes each of them, holds it and finishes it.

* `Handoff τ ρ`          where the items are;
* `Move`                 the steps;
* `Conserved`            no accepted item is lost, and none is in two places;
* `Conserved.all_finished`   where none waits and none is held, each was finished once;
* `filterMap_set_perm`, `sum_map_set`   one of many workers goes on;
* `best lower xs`        an item of `xs` that no other one is above, and what it is like for an order
                         (`best_above`).
-/

namespace HyperMoE.Lib

variable {τ ρ : Type}

structure Handoff (τ ρ : Type) where
  accepted : List τ
  waiting : List τ
  held : List τ
  finished : List (τ × ρ)

namespace Handoff

variable {h h' : Handoff τ ρ}

inductive Move (h h' : Handoff τ ρ) : Prop where
  | accept (x : τ) (accepted : h'.accepted.Perm (x :: h.accepted))
      (waiting : h'.waiting.Perm (x :: h.waiting)) (held : h'.held = h.held)
      (finished : h'.finished = h.finished)
  | take (x : τ) (accepted : h'.accepted = h.accepted) (waiting : h.waiting.Perm (x :: h'.waiting))
      (held : h'.held.Perm (x :: h.held)) (finished : h'.finished = h.finished)
  | finish (x : τ) (r : ρ) (accepted : h'.accepted = h.accepted) (waiting : h'.waiting = h.waiting)
      (held : h.held.Perm (x :: h'.held)) (finished : h'.finished = (x, r) :: h.finished)
  | stay (accepted : h'.accepted = h.accepted) (waiting : h'.waiting = h.waiting)
      (held : h'.held.Perm h.held) (finished : h'.finished = h.finished)

/-- where the items are now, all of them -/
def places (h : Handoff τ ρ) : List τ := h.waiting ++ (h.held ++ h.finished.map Prod.fst)

def Conserved (h : Handoff τ ρ) : Prop := h.places.Perm h.accepted

theorem Move.conserved (m : Move h h') (hc : Conserved h) : Conserved h' := by
  unfold Conserved places at *
  cases m with
  | accept x accepted waiting held finished =>
    rw [held, finished]
    exact (waiting.append_right _).trans ((hc.cons x).trans accepted.symm)
  | take x accepted waiting held finished =>
    rw [accepted, finished]
    refine List.Perm.trans ?_ hc
    have hheld : (h'.held ++ h.finished.map Prod.fst).Perm
        (x :: (h.held ++ h.finished.map Prod.fst)) := held.append_right _
    exact (hheld.append_left _).trans (List.perm_middle.trans (waiting.append_right _).symm)
  | finish x r accepted waiting held finished =>
    rw [accepted, waiting, finished, List.map_cons]
    refine List.Perm.trans ?_ hc
    exact (List.perm_middle.trans (held.append_right _).symm).append_left _
  | stay accepted waiting held finished =>
    rw [accepted, waiting, finished]
    exact ((held.append_right _).append_left _).trans hc

theorem Conserved.nodup (hc : Conserved h) (hn : h.accepted.Nodup) : h.places.Nodup :=
  hc.nodup_iff.mpr hn

theorem Conserved.all_finished (hc : Conserved h) (hwaiting : h.waiting = []) (hheld : h.held = []) :
    (h.finished.map Prod.fst).Perm h.accepted := by
  unfold Conserved places at hc
  rwa [hwaiting, hheld] at hc

end Handoff

/-! ## one of many workers -/

/-- the items of a crew when the worker `w` goes from `x` to `y` -/
theorem filterMap_set_perm {α : Type} {f : α → Option τ} {xs : List α} {w : Nat} {x : α} (y : α)
    (hw : xs[w]? = some x) : ∃ rest, (xs.filterMap f).Perm ((f x).toList ++ rest) ∧
      ((xs.set w y).filterMap f).Perm ((f y).toList ++ rest) := by
  induction xs generalizing w with
  | nil => exact nomatch hw
  | cons z xs ih =>
    cases w with
    | zero =>
      obtain rfl := Option.some.inj hw
      refine ⟨xs.filterMap f, ?_, ?_⟩
      · cases hz : f z <;> simp [hz]
      · cases hy : f y <;> simp [hy]
    | succ w =>
      obtain ⟨rest, hx, hy⟩ := ih (w := w) hw
      rw [List.set_cons_succ]
      cases hz : f z with
      | none =>
        rw [List.filterMap_cons_none hz, List.filterMap_cons_none hz]
        exact ⟨rest, hx, hy⟩
      | some t =>
        rw [List.filterMap_cons_some hz, List.filterMap_cons_some hz]
        exact ⟨t :: rest, (hx.cons t).trans List.perm_middle.symm,
          (hy.cons t).trans List.perm_middle.symm⟩

/-- what a crew has to do when the worker `w` goes from `x` to `y` -/
theorem sum_map_set {α : Type} (f : α → Nat) {xs : List α} {w : Nat} {x : α} (y : α)
    (hw : xs[w]? = some x) : ((xs.set w y).map f).sum + f x = (xs.map f).sum + f y := by
  induction xs generalizing w with
  | nil => exact nomatch hw
  | cons z xs ih =>
    cases w with
    | zero =>
      obtain rfl := Option.some.inj hw
      simp only [List.set_cons_zero, List.map_cons, List.sum_cons]
      omega
    | succ w =>
      have hrest := ih (w := w) hw
      simp only [List.set_cons_succ, List.map_cons, List.sum_cons]
      omega

/-! ## the best of a list -/

section
variable (lower : τ → τ → Bool)

def best : List τ → Option τ
  | [] => none
  | x :: xs =>
    match best xs with
    | none => some x
    | some y => if lower x y then some y else some x

variable {lower}

theorem best_isSome {xs : List τ} (hne : xs ≠ []) : ∃ x, best lower xs = some x := by
  cases xs with
  | nil => exact absurd rfl hne
  | cons x xs =>
    unfold best
    split
    · exact ⟨x, rfl⟩
    · split
      · exact ⟨_, rfl⟩
      · exact ⟨x, rfl⟩

theorem best_mem {xs : List τ} {x : τ} (h : best lower xs = some x) : x ∈ xs := by
  induction xs generalizing x with
  | nil => exact nomatch h
  | cons z xs ih =>
    unfold best at h
    split at h
    · exact List.mem_cons.mpr (.inl (Option.some.inj h).symm)
    · next y hy =>
      split at h
      · obtain rfl := Option.some.inj h
        exact List.mem_cons_of_mem z (ih hy)
      · exact List.mem_cons.mpr (.inl (Option.some.inj h).symm)

/-- for a transitive order in which two different items are comparable -/
theorem best_above {xs : List τ} {x : τ}
    (trans : ∀ a b c, lower a b = true → lower b c = true → lower a c = true)
    (total : ∀ a ∈ xs, ∀ b ∈ xs, a ≠ b → lower a b = false → lower b a = true)
    (h : best lower xs = some x) : ∀ y ∈ xs, y ≠ x → lower y x = true := by
  induction xs generalizing x with
  | nil => exact nomatch h
  | cons z xs ih =>
    have ih' := fun {x} => ih (x := x) fun a ha b hb =>
      total a (List.mem_cons_of_mem z ha) b (List.mem_cons_of_mem z hb)
    unfold best at h
    cases hb : best lower xs with
    | none =>
      rw [hb] at h
      obtain rfl := Option.some.inj h
      have hnil : xs = [] := by
        by_contra hne
        obtain ⟨y, hy⟩ := best_isSome hne
        exact absurd (hb.symm.trans hy) (by simp)
      subst hnil
      exact fun y hy hne => absurd (List.mem_singleton.mp hy) hne
    | some y =>
      rw [hb] at h
      have hy := best_mem hb
      have habove := ih' hb
      replace h : (if lower z y = true then some y else some z) = some x := h
      intro a ha hne
      split at h
      · next hzy =>
        obtain rfl := Option.some.inj h
        rcases List.mem_cons.mp ha with rfl | ha
        · exact hzy
        · exact habove a ha hne
      · next hzy =>
        obtain rfl := Option.some.inj h
        have hzy := Bool.eq_false_iff.mpr hzy
        replace ha := (List.mem_cons.mp ha).resolve_left hne
        have hlast : ∀ b, b ∈ xs → z ≠ b → lower z b = false → lower b z = true := fun b hb =>
          total z List.mem_cons_self b (List.mem_cons_of_mem z hb)
        by_cases hay : a = y
        · subst hay
          exact hlast a ha (Ne.symm hne) hzy
        · have hlow := habove a ha hay
          by_cases heq : z = y
          · exact heq ▸ hlow
          · exact trans a y z hlow (hlast y hy heq hzy)

end

end HyperMoE.Lib
