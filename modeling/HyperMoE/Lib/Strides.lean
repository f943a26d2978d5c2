import Mathlib.Algebra.BigOperators.Intervals
import Mathlib.Algebra.BigOperators.Ring.Finset

/-!
# Sums in pieces

The orders in which parallel code sums up: lanes that step over the indices, halves that are folded
onto each other, and ranges laid end to end.

* `sum_lane`      the steps of one lane are the indices with its remainder;
* `sum_lanes`     all lanes together;
* `sum_fold`      the upper half added to the lower one;
* `sum_ranges`    consecutive ranges.
-/

namespace HyperMoE.Lib

open Finset

variable {M : Type} [AddCommMonoid M]

theorem sum_lane {lanes lane : Nat} (h : lane < lanes) (steps : Nat) (f : Nat → M) :
    ∑ j ∈ range steps, f (lane + lanes * j) =
      ∑ k ∈ range (lanes * steps), if k % lanes = lane then f k else 0 := by
  have hpos : 0 < lanes := Nat.zero_lt_of_lt h
  rw [← sum_filter]
  refine sum_nbij' (fun j => lane + lanes * j) (fun k => k / lanes) ?_ ?_ ?_ ?_ fun _ _ => rfl
  · intro j hj
    refine mem_filter.mpr ⟨mem_range.mpr ?_, ?_⟩
    · calc lane + lanes * j < lanes + lanes * j := Nat.add_lt_add_right h _
        _ = lanes * (j + 1) := by rw [Nat.mul_succ, Nat.add_comm]
        _ ≤ lanes * steps := Nat.mul_le_mul_left _ (mem_range.mp hj)
    · rw [Nat.add_mul_mod_self_left, Nat.mod_eq_of_lt h]
  · intro k hk
    obtain ⟨hk, -⟩ := mem_filter.mp hk
    exact mem_range.mpr (Nat.div_lt_of_lt_mul (mem_range.mp hk))
  · intro j _
    rw [Nat.add_mul_div_left _ _ hpos, Nat.div_eq_of_lt h, Nat.zero_add]
  · intro k hk
    obtain ⟨-, hmod⟩ := mem_filter.mp hk
    rw [← hmod, Nat.mod_add_div]

theorem sum_lanes {lanes : Nat} (h : 0 < lanes) (s : Finset Nat) (place : Nat → Nat) (f : Nat → M) :
    ∑ lane ∈ range lanes, ∑ k ∈ s, (if place k % lanes = lane then f k else 0) = ∑ k ∈ s, f k := by
  rw [sum_comm]
  refine sum_congr rfl fun k _ => ?_
  rw [sum_ite_eq, if_pos (mem_range.mpr (Nat.mod_lt _ h))]

theorem sum_fold (stride : Nat) (f : Nat → M) :
    ∑ lane ∈ range stride, (f lane + f (lane + stride)) = ∑ lane ∈ range (stride + stride), f lane := by
  rw [sum_range_add, sum_add_distrib]
  exact congrArg _ (sum_congr rfl fun lane _ => by rw [Nat.add_comm])

theorem sum_ranges (bound : Nat → Nat) (hmono : ∀ p, bound p ≤ bound (p + 1)) (n : Nat) (f : Nat → M) :
    ∑ p ∈ range n, ∑ k ∈ Ico (bound p) (bound (p + 1)), f k = ∑ k ∈ Ico (bound 0) (bound n), f k := by
  induction n with
  | zero => rw [range_zero, sum_empty, Ico_self, sum_empty]
  | succ n ih =>
    rw [sum_range_succ, ih, sum_Ico_consecutive _ (monotone_nat_of_le_succ hmono (Nat.zero_le n))
      (hmono n)]

end HyperMoE.Lib
