import Mathlib.Algebra.Order.Floor.Ring
import Mathlib.Algebra.Order.Ring.Abs
import Mathlib.Tactic.Linarith
import Mathlib.Tactic.Ring
import HyperMoE.Lib.Numerals

/-!
# Rounding, and the largest of a list

* `roundAway x`    the nearest integer, and the one away from zero if there are two;
* `clamp v lo hi`  the nearest number between two bounds;
* `largest f l`    a loop that keeps a maximum, from zero on.
-/

namespace HyperMoE.Lib

open Numerals

section
variable {K : Type} [Field K] [LinearOrder K] [FloorRing K]

def roundAway (x : K) : Int := if x < 0 then -⌊-x + 1 / 2⌋ else ⌊x + 1 / 2⌋

variable [IsStrictOrderedRing K]

theorem floor_half_near (x : K) : |x - ⌊x + 1 / 2⌋| ≤ 1 / 2 := by
  have hle := Int.floor_le (x + 1 / 2)
  have hlt := Int.lt_floor_add_one (x + 1 / 2)
  rw [abs_le]
  constructor <;> linarith

theorem roundAway_near (x : K) : |x - roundAway x| ≤ 1 / 2 := by
  rw [roundAway]
  split
  · have h := floor_half_near (-x)
    have e : x - ((-⌊-x + 1 / 2⌋ : Int) : K) = -(-x - ⌊-x + 1 / 2⌋) := by
      push_cast
      ring
    rw [e, abs_neg]
    exact h
  · exact floor_half_near x

theorem roundAway_intCast (i : Int) : roundAway (i : K) = i := by
  have hhalf : ∀ j : Int, ⌊(j : K) + 1 / 2⌋ = j := by
    intro j
    rw [Int.floor_eq_iff]
    constructor <;> linarith
  rw [roundAway]
  split
  · rw [← Int.cast_neg, hhalf, neg_neg]
  · exact hhalf i

/-- rounding does not leave integer bounds -/
theorem roundAway_bounds {x : K} {n : Int} (h : |x| ≤ n) : -n ≤ roundAway x ∧ roundAway x ≤ n := by
  have hnear := abs_le.mp (roundAway_near x)
  have hx := abs_le.mp h
  have hlower : ((-n - 1 : Int) : K) < (roundAway x : K) := by
    push_cast
    linarith
  have hupper : (roundAway x : K) < ((n + 1 : Int) : K) := by
    push_cast
    linarith
  have hlower' := Int.cast_lt.mp hlower
  have hupper' := Int.cast_lt.mp hupper
  omega

end

/-- `std::clamp` -/
def clamp (v lo hi : Int) : Int := if v < lo then lo else if hi < v then hi else v

theorem clamp_of_mem {v lo hi : Int} (hlo : lo ≤ v) (hhi : v ≤ hi) : clamp v lo hi = v := by
  rw [clamp, if_neg (by omega), if_neg (by omega)]

/-! ## the largest -/

section
variable {K α : Type} [LinearOrder K]

def largest [Zero K] (f : α → K) (l : List α) : K := l.foldl (fun m a => max m (f a)) 0

theorem largest_foldl (f : α → K) : ∀ (l : List α) (m : K),
    m ≤ l.foldl (fun m a => max m (f a)) m ∧
    (∀ a ∈ l, f a ≤ l.foldl (fun m a => max m (f a)) m) ∧
    (l.foldl (fun m a => max m (f a)) m = m ∨
      ∃ a ∈ l, f a = l.foldl (fun m a => max m (f a)) m) := by
  intro l
  induction l with
  | nil => exact fun m => ⟨le_refl m, fun a ha => (nomatch ha), Or.inl rfl⟩
  | cons b l ih =>
    intro m
    obtain ⟨hstart, hmem, hreached⟩ := ih (max m (f b))
    refine ⟨(le_max_left m (f b)).trans hstart, fun a ha => ?_, ?_⟩
    · rcases List.mem_cons.mp ha with rfl | ha
      · exact (le_max_right m _).trans hstart
      · exact hmem a ha
    · rcases hreached with he | ⟨a, ha, he⟩
      · rcases max_choice m (f b) with hm | hb
        · exact Or.inl (he.trans hm)
        · exact Or.inr ⟨b, List.mem_cons_self, (he.trans hb).symm⟩
      · exact Or.inr ⟨a, List.mem_cons_of_mem b ha, he⟩

variable [Zero K]

theorem le_largest {f : α → K} {l : List α} {a : α} (h : a ∈ l) : f a ≤ largest f l :=
  (largest_foldl f l 0).2.1 a h

/-- it is the one of an element -/
theorem exists_largest {f : α → K} {l : List α} (hf : ∀ a, 0 ≤ f a) (hne : l ≠ []) :
    ∃ a ∈ l, f a = largest f l := by
  obtain ⟨hstart, hmem, hreached⟩ := largest_foldl f l 0
  rcases hreached with he | h
  · obtain ⟨a, ha⟩ := List.exists_mem_of_ne_nil l hne
    exact ⟨a, ha, le_antisymm (hmem a ha) (he.trans_le (hf a))⟩
  · exact h

theorem largest_eq {f : α → K} {l : List α} {m : K} (hf : ∀ a, 0 ≤ f a)
    (hle : ∀ a ∈ l, f a ≤ m) (hreached : ∃ a ∈ l, f a = m) : largest f l = m := by
  obtain ⟨a, ha, he⟩ := hreached
  obtain ⟨b, hb, he'⟩ := exists_largest hf (List.ne_nil_of_mem ha)
  exact le_antisymm (he' ▸ hle b hb) (he ▸ le_largest ha)

end

end HyperMoE.Lib
