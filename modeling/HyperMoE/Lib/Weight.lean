import Mathlib.Algebra.BigOperators.Group.List.Basic
import Mathlib.Algebra.Order.BigOperators.Group.List
import Mathlib.Algebra.Order.Ring.Nat
import Mathlib.Data.List.Nodup

/-!
# The weight of a list of keys

A table gives every key a weight, and a list of keys has the sum of the weights of its keys.

* `weight f keys`                     the sum;
* `weight_mono`, `weight_sublist`     lighter keys, fewer keys;
* `weight_erase`                      one key less;
* `weight_update_of_notMem`, `weight_update_of_mem`   the weight of one key has changed.
-/

namespace HyperMoE.Lib

variable {κ : Type}

def weight (f : κ → Nat) (keys : List κ) : Nat := (keys.map f).sum

@[simp] theorem weight_nil (f : κ → Nat) : weight f [] = 0 := rfl

@[simp] theorem weight_cons (f : κ → Nat) (k : κ) (keys : List κ) :
    weight f (k :: keys) = f k + weight f keys := List.sum_cons

theorem weight_mono {f g : κ → Nat} {keys : List κ} (h : ∀ k ∈ keys, f k ≤ g k) :
    weight f keys ≤ weight g keys := by
  induction keys with
  | nil => exact Nat.le_refl 0
  | cons k keys ih =>
    rw [weight_cons, weight_cons]
    have hk := h k List.mem_cons_self
    have := ih fun k' hk' => h k' (List.mem_cons_of_mem k hk')
    omega

theorem weight_congr {f g : κ → Nat} {keys : List κ} (h : ∀ k ∈ keys, f k = g k) :
    weight f keys = weight g keys := congrArg List.sum (List.map_congr_left h)

theorem weight_sublist (f : κ → Nat) {keys keys' : List κ} (h : keys.Sublist keys') :
    weight f keys ≤ weight f keys' :=
  (h.map f).sum_le_sum fun _ _ => Nat.zero_le _

theorem weight_perm (f : κ → Nat) {keys keys' : List κ} (h : keys.Perm keys') :
    weight f keys = weight f keys' := (h.map f).sum_eq

section
variable [BEq κ] [LawfulBEq κ]

theorem weight_erase (f : κ → Nat) {k : κ} {keys : List κ} (h : k ∈ keys) :
    f k + weight f (keys.erase k) = weight f keys :=
  (weight_cons f k _).symm.trans (weight_perm f (List.perm_cons_erase h).symm)

omit [LawfulBEq κ] in
theorem weight_erase_le (f : κ → Nat) (k : κ) (keys : List κ) :
    weight f (keys.erase k) ≤ weight f keys := weight_sublist f List.erase_sublist

theorem weight_insert (f : κ → Nat) {k : κ} {keys : List κ} (h : k ∉ keys) :
    weight f (keys.insert k) = f k + weight f keys := by
  rw [List.insert_of_not_mem h, weight_cons]

end

variable [DecidableEq κ]

theorem weight_update_of_notMem (f : κ → Nat) {k : κ} {keys : List κ} (n : Nat) (h : k ∉ keys) :
    weight (Function.update f k n) keys = weight f keys := by
  apply weight_congr
  intro k' hk'
  rw [Function.update_of_ne]
  rintro rfl
  exact h hk'

theorem weight_update_of_mem (f : κ → Nat) {k : κ} {keys : List κ} (n : Nat) (h : k ∈ keys)
    (hnodup : keys.Nodup) : weight (Function.update f k n) keys + f k = weight f keys + n := by
  have hgone : k ∉ keys.erase k := fun hm => (hnodup.mem_erase_iff.mp hm).1 rfl
  have hbefore := weight_erase f h
  have hafter := weight_erase (Function.update f k n) h
  rw [Function.update_self, weight_update_of_notMem f n hgone] at hafter
  omega

theorem weight_update_le (f : κ → Nat) {k : κ} {n : Nat} (h : n ≤ f k) (keys : List κ) :
    weight (Function.update f k n) keys ≤ weight f keys := by
  apply weight_mono
  intro k' _
  rw [Function.update_apply]
  split
  · next hk => exact hk ▸ h
  · exact Nat.le_refl _

end HyperMoE.Lib
