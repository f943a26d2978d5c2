import Mathlib.Algebra.BigOperators.Group.List.Basic
import Mathlib.Data.List.TakeDrop
import HyperMoE.Lib.Fallible

/-!
# 64-bit arithmetic under watch

Unsigned arithmetic wraps and says nothing.  A program in `Watched` computes with the words that
the machine has, and its state remembers whether every operation so far gave the exact integer.

* `Watched.add`, `sub`, `mul`    one operation;
* `Watched.div`                  a division, which has no exact result where the divisor is zero;
* `Watched.guardMul`             the guard before a product, with the division it needs;
* `Watched.product`              the product of dimensions, with a guard before every factor;
* `Watched.attach`               a computed value together with how it came about;
* `exact_add`, `exact_mul`       what the usual guards before an operation are good for;
* `Watched.Remembers`            a program that does not forget an operation that was not exact.
-/

namespace HyperMoE.Lib

open Fallible

abbrev Watched (ε : Type) : Type → Type := Fallible ε Bool

/-- the largest 64-bit word -/
def maxWord : UInt64 := 0xffffffffffffffff

namespace Watched

variable {ε : Type} {exact : Bool} {a b : UInt64}

/-- an operation, and whether its exact result is a word -/
def op (word : UInt64) (fits : Bool) : Watched ε UInt64 :=
  updateGet fun exact => (word, exact && fits)

def add (a b : UInt64) : Watched ε UInt64 := op (a + b) (a.toNat + b.toNat < 2 ^ 64)

def sub (a b : UInt64) : Watched ε UInt64 := op (a - b) (b ≤ a)

def mul (a b : UInt64) : Watched ε UInt64 := op (a * b) (a.toNat * b.toNat < 2 ^ 64)

def div (a b : UInt64) : Watched ε UInt64 := op (a / b) (b ≠ 0)

/-- `if (a > max / b) throw e;` -/
def guardMul (a b : UInt64) (e : ε) : Watched ε Unit := do
  let most ← div maxWord b
  throwIf (a > most) e

/-- `for (d : dimensions) { if (d == 0) throw zero; if (elements > max / d) throw overflow;
elements *= d; }` -/
def product (zero overflow : ε) (elements : UInt64) : List UInt64 → Watched ε UInt64
  | [] => pure elements
  | d :: dimensions => do
    throwIf (d = 0) zero
    throwIf (elements > maxWord / d) overflow
    let elements ← mul elements d
    product zero overflow elements dimensions

/-- an outcome, with the proof that it is the outcome -/
def attachOutcome {α : Type} : (r : Except ε α) → Except ε { a : α // r = .ok a }
  | .ok a => .ok ⟨a, rfl⟩
  | .error e => .error e

/-- run on its own, with the proof that it answered so -/
def attach {α : Type} (x : Watched ε α) : Watched ε { a : α // (x.exec true).1 = .ok a } :=
  fun exact => (attachOutcome (x.exec true).1, exact && (x.exec true).2)

/-! ## guards -/

@[simp] theorem toNat_maxWord : maxWord.toNat = 2 ^ 64 - 1 := rfl

theorem exact_add (h : a ≤ maxWord - b) : a.toNat + b.toNat < 2 ^ 64 := by
  have hb := UInt64.toNat_lt b
  have hle : b ≤ maxWord := UInt64.le_iff_toNat_le.mpr (by rw [toNat_maxWord]; omega)
  rw [UInt64.le_iff_toNat_le, UInt64.toNat_sub_of_le _ _ hle, toNat_maxWord] at h
  omega

theorem exact_mul (h : a ≤ maxWord / b) (hb : b ≠ 0) : a.toNat * b.toNat < 2 ^ 64 := by
  have hpos : 0 < b.toNat := Nat.pos_of_ne_zero fun h0 => hb (UInt64.toNat_inj.mp h0)
  rw [UInt64.le_iff_toNat_le, UInt64.toNat_div, toNat_maxWord, Nat.le_div_iff_mul_le hpos] at h
  omega

/-! ## specifications -/

theorem wp_add {Q : Except ε UInt64 → Bool → Prop} (h : a.toNat + b.toNat < 2 ^ 64)
    (hQ : ∀ c : UInt64, c.toNat = a.toNat + b.toNat → Q (.ok c) exact) : wp (add a b) Q exact := by
  show Q (.ok (a + b)) (exact && decide _)
  rw [decide_eq_true h, Bool.and_true]
  refine hQ _ ?_
  rw [UInt64.toNat_add, Nat.mod_eq_of_lt h]

theorem wp_sub {Q : Except ε UInt64 → Bool → Prop} (h : b ≤ a)
    (hQ : ∀ c : UInt64, c.toNat = a.toNat - b.toNat → Q (.ok c) exact) : wp (sub a b) Q exact := by
  show Q (.ok (a - b)) (exact && decide _)
  rw [decide_eq_true h, Bool.and_true]
  exact hQ _ (UInt64.toNat_sub_of_le _ _ h)

theorem wp_mul {Q : Except ε UInt64 → Bool → Prop} (h : a.toNat * b.toNat < 2 ^ 64)
    (hQ : ∀ c : UInt64, c.toNat = a.toNat * b.toNat → Q (.ok c) exact) : wp (mul a b) Q exact := by
  show Q (.ok (a * b)) (exact && decide _)
  rw [decide_eq_true h, Bool.and_true]
  refine hQ _ ?_
  rw [UInt64.toNat_mul, Nat.mod_eq_of_lt h]

theorem wp_div {Q : Except ε UInt64 → Bool → Prop} (h : b ≠ 0)
    (hQ : ∀ c : UInt64, c.toNat = a.toNat / b.toNat → Q (.ok c) exact) : wp (div a b) Q exact := by
  show Q (.ok (a / b)) (exact && decide (b ≠ 0))
  rw [decide_eq_true h, Bool.and_true]
  exact hQ _ (UInt64.toNat_div a b)

theorem wp_guardMul {e : ε} {Q : Except ε Unit → Bool → Prop} (hb : b ≠ 0)
    (hok : a.toNat ≤ (2 ^ 64 - 1) / b.toNat → Q (.ok ()) exact)
    (herror : (2 ^ 64 - 1) / b.toNat < a.toNat → Q (.error e) exact) :
    wp (guardMul a b e) Q exact := by
  unfold guardMul
  rw [wp_bind]
  refine wp_div hb fun most hmost => ?_
  dsimp only
  rw [wp_throwIf]
  rw [toNat_maxWord] at hmost
  split
  · next h =>
    exact herror (hmost ▸ UInt64.lt_iff_toNat_lt.mp h)
  · next h =>
    exact hok (hmost ▸ UInt64.le_iff_toNat_le.mp (UInt64.not_lt.mp h))

/-- a sum that wraps -/
theorem wp_add_wraps {Q : Except ε UInt64 → Bool → Prop} (h : 2 ^ 64 ≤ a.toNat + b.toNat)
    (hQ : Q (.ok (a + b)) false) : wp (add a b) Q exact := by
  show Q (.ok (a + b)) (exact && decide _)
  rw [decide_eq_false (Nat.not_lt.mpr h), Bool.and_false]
  exact hQ

/-- an operation that was not exact is not forgotten -/
def Remembers {α : Type} (x : Watched ε α) : Prop := wp x (fun _ exact => exact = false) false

section
variable {α β : Type}

theorem remembers_op (word : UInt64) (fits : Bool) : Remembers (op word fits : Watched ε UInt64) := rfl

theorem remembers_throwIf (c : Prop) [Decidable c] (e : ε) :
    Remembers (throwIf c e : Watched ε Unit) := by
  unfold Remembers
  rw [wp_throwIf]
  split <;> rfl

theorem Remembers.bind {x : Watched ε α} {f : α → Watched ε β} (hx : Remembers x)
    (hf : ∀ a, Remembers (f a)) : Remembers (x >>= f) := by
  refine wp_seq hx ?_ fun _ _ h => h
  rintro a _ rfl
  exact hf a

theorem remembers_guardMul (a b : UInt64) (e : ε) : Remembers (guardMul a b e) :=
  (remembers_op _ _).bind fun _ => remembers_throwIf _ _

end

theorem attachOutcome_cases {α : Type} {r : Except ε α} {P : Except ε { a : α // r = .ok a } → Prop}
    (hok : ∀ a (h : r = .ok a), P (.ok ⟨a, h⟩)) (herror : ∀ e, r = .error e → P (.error e)) :
    P (attachOutcome r) := by
  cases r with
  | ok a => exact hok a rfl
  | error e => exact herror e rfl

theorem wp_attach {α : Type} {x : Watched ε α}
    {Q : Except ε { a : α // (x.exec true).1 = .ok a } → Bool → Prop} {R : Except ε α → Prop}
    (h : wp x (fun r exact' => exact' = true ∧ R r) true)
    (hok : ∀ a (ha : (x.exec true).1 = .ok a), R (.ok a) → Q (.ok ⟨a, ha⟩) exact)
    (herror : ∀ e, R (.error e) → Q (.error e) exact) : wp (attach x) Q exact := by
  obtain ⟨hexact, hr⟩ := h
  show Q (attachOutcome (x.exec true).1) (exact && (x.exec true).2)
  rw [hexact, Bool.and_true]
  refine attachOutcome_cases (P := fun r => Q r exact) (fun a ha => hok a ha ?_) fun e he => herror e ?_
  · rwa [ha] at hr
  · rwa [he] at hr

/-- a product that passed its guards is exact, and no factor is zero -/
theorem wp_product {zero overflow : ε} {Q : Except ε UInt64 → Bool → Prop}
    (dimensions : List UInt64) (elements : UInt64)
    (hQ : ∀ c : UInt64, c.toNat = elements.toNat * (dimensions.map UInt64.toNat).prod →
      (∀ d ∈ dimensions, d ≠ 0) → Q (.ok c) exact)
    (hzero : Q (.error zero) exact) (hover : Q (.error overflow) exact) :
    wp (product zero overflow elements dimensions) Q exact := by
  induction dimensions generalizing elements with
  | nil => exact hQ elements (by simp) (by simp)
  | cons d dimensions ih =>
    show wp (_ >>= _) Q exact
    rw [wp_bind, wp_throwIf]
    split
    · exact hzero
    next hd =>
    show wp (_ >>= _) Q exact
    rw [wp_bind, wp_throwIf]
    split
    · exact hover
    next hle =>
    show wp (_ >>= _) Q exact
    rw [wp_bind]
    refine wp_mul (exact_mul (UInt64.not_lt.mp hle) hd) fun c hc => ih c fun c' hc' hne => ?_
    refine hQ c' ?_ fun d' hd' => ?_
    · rw [hc', hc, List.map_cons, List.prod_cons, Nat.mul_assoc]
    · rcases List.mem_cons.mp hd' with rfl | hd'
      · exact hd
      · exact hne d' hd'

end Watched

end HyperMoE.Lib
