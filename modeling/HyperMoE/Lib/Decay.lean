import Mathlib.Algebra.BigOperators.Group.Finset.Basic
import Mathlib.Algebra.BigOperators.Ring.Finset
import Mathlib.Data.List.GetD
import Mathlib.Tactic.Ring
import HyperMoE.Lib.Table

/-!
# Counters that fade

Occurrences are counted in a discrete time, and each counts for `d ^ age`.  A lazy counter is
rescaled only when it is read or touched; its readings are those of the eager sum over the history.

* `faded d counts`      the eager sum: `counts` says how often the thing occurred at each past time;
* `Lazy`                the lazy counter, with `Lazy.read` and `Lazy.touch`;
* `Lazy.Reads`          the counter reads the given value at the given time;
* `Reads.touch`, `Reads.tick`   what an occurrence and the passing of time do to it;
* `Table.Fades`         a table of lazy counters follows a history of lists of keys.
-/

namespace HyperMoE.Lib

open Finset

variable {K : Type} [CommSemiring K] (d : K)

/-- an occurrence at the last of the past times has age 1 -/
def faded (counts : List Nat) : K :=
  ∑ i ∈ range counts.length, (counts.getD i 0 : K) * d ^ (counts.length - i)

@[simp] theorem faded_nil : faded d [] = 0 := rfl

theorem faded_append (counts : List Nat) (n : Nat) :
    faded d (counts ++ [n]) = (faded d counts + n) * d := by
  unfold faded
  rw [List.length_append, List.length_singleton, sum_range_succ, add_mul, sum_mul]
  congr 1
  · refine sum_congr rfl fun i hi => ?_
    have hlt := mem_range.mp hi
    have hage : counts.length + 1 - i = counts.length - i + 1 := by omega
    rw [List.getD_append _ _ _ _ hlt, hage, pow_succ, mul_assoc]
  · have hage : counts.length + 1 - counts.length = 1 := by omega
    rw [List.getD_append_right _ _ _ _ (Nat.le_refl _), hage, pow_one, Nat.sub_self]
    rfl

structure Lazy (K : Type) where
  value : K
  last : Nat

namespace Lazy

variable {d}

def read (d : K) (now : Nat) (c : Lazy K) : K := c.value * d ^ (now - c.last)

def touch (d : K) (now : Nat) (c : Lazy K) : Lazy K := ⟨c.read d now + 1, now⟩

structure Reads (d : K) (now : Nat) (c : Lazy K) (x : K) : Prop where
  past : c.last ≤ now
  value : c.read d now = x

theorem Reads.zero {now n : Nat} (h : n ≤ now) : Reads d now ⟨0, n⟩ 0 := ⟨h, zero_mul _⟩

theorem Reads.touch {now : Nat} {c : Lazy K} {x : K} (h : Reads d now c x) :
    Reads d now (c.touch d now) (x + 1) := by
  refine ⟨Nat.le_refl _, ?_⟩
  show (c.read d now + 1) * d ^ (now - now) = _
  rw [h.value, Nat.sub_self, pow_zero, mul_one]

theorem Reads.tick {now : Nat} {c : Lazy K} {x : K} (h : Reads d now c x) :
    Reads d (now + 1) c (x * d) := by
  refine ⟨Nat.le_succ_of_le h.past, ?_⟩
  have hage : now + 1 - c.last = now - c.last + 1 := by
    have := h.past
    omega
  show c.value * d ^ (now + 1 - c.last) = _
  rw [hage, pow_succ, ← mul_assoc]
  exact congrArg (· * d) h.value

end Lazy

/-! ## a table of them -/

namespace Table

variable {κ : Type} [DecidableEq κ] {d}

/-- a missing counter is at zero -/
def fading (t : Table κ (Lazy K)) (k : κ) : Lazy K := (t.lookup k).getD ⟨0, 0⟩

/-- one touch for each of the keys -/
def touchAll (d : K) (now : Nat) (keys : List κ) (t : Table κ (Lazy K)) : Table κ (Lazy K) :=
  keys.foldl (fun t k => adjust (Lazy.touch d now) ⟨0, 0⟩ k t) t

theorem reads_touchAll {now : Nat} {keys : List κ} {t : Table κ (Lazy K)} {k : κ} {x : K}
    (h : Lazy.Reads d now (t.fading k) x) :
    Lazy.Reads d now ((touchAll d now keys t).fading k) (x + keys.count k) := by
  induction keys generalizing t x with
  | nil => simpa [touchAll] using h
  | cons a keys ih =>
    show Lazy.Reads d now ((touchAll d now keys (adjust (Lazy.touch d now) ⟨0, 0⟩ a t)).fading k) _
    by_cases hk : k = a
    · subst hk
      have hstep : Lazy.Reads d now
          ((adjust (Lazy.touch d now) ⟨0, 0⟩ k t).fading k) (x + 1) := by
        unfold fading
        rw [lookup_adjust, if_pos rfl]
        exact h.touch
      have := ih hstep
      rw [List.count_cons_self, Nat.cast_succ]
      rwa [add_assoc, add_comm 1] at this
    · have hstep : Lazy.Reads d now ((adjust (Lazy.touch d now) ⟨0, 0⟩ a t).fading k) x := by
        unfold fading
        rw [lookup_adjust, if_neg hk]
        exact h
      rw [List.count_cons_of_ne (Ne.symm hk)]
      exact ih hstep

/-- every counter of the table reads the eager sum over the history of keys -/
def Fades (d : K) (t : Table κ (Lazy K)) (history : List (List κ)) : Prop :=
  ∀ k, Lazy.Reads d history.length (t.fading k) (faded d (history.map (List.count k)))

theorem fades_empty : Fades d (∅ : Table κ (Lazy K)) [] := fun _ => Lazy.Reads.zero (Nat.le_refl _)

/-- the keys of one more time are touched, and it passes -/
theorem Fades.append {t : Table κ (Lazy K)} {history : List (List κ)} (h : Fades d t history)
    (keys : List κ) :
    Fades d (touchAll d history.length keys t) (history ++ [keys]) := by
  intro k
  have hread : Lazy.Reads d history.length _ (_ + (keys.count k : K)) := reads_touchAll (h k)
  have := hread.tick
  rw [List.map_append, List.map_singleton, faded_append, List.length_append]
  exact this

end Table

end HyperMoE.Lib
