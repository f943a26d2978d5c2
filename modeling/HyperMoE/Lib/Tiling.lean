import Mathlib.Data.List.Perm.Basic
import Mathlib.Data.List.Range

/-!
# Ranges laid end to end

A range of addresses cut into parts of one width.

* `AddressRange.Has`     the addresses of a range;
* `AddressRange.Tile`    ranges that share no address, and together are a whole one;
* `part`                 the part with a number;
* `tile_parts`           all the parts, in any order;
* `range_pairs`          twice as many parts, taken in pairs.
-/

namespace HyperMoE.Lib

structure AddressRange where
  start : Nat
  size : Nat
  deriving DecidableEq, Repr

namespace AddressRange

def Has (r : AddressRange) (a : Nat) : Prop := r.start ≤ a ∧ a < r.start + r.size

/-- no address in common -/
def Apart (r r' : AddressRange) : Prop := ∀ a, r.Has a → ¬ r'.Has a

structure Tile (parts : List AddressRange) (whole : AddressRange) : Prop where
  apart : parts.Pairwise Apart
  cover : ∀ a, (∃ p ∈ parts, p.Has a) ↔ whole.Has a

variable {parts parts' : List AddressRange} {whole : AddressRange} {start width k k' n : Nat}

theorem Apart.symm {r r' : AddressRange} (h : r.Apart r') : r'.Apart r := fun a ha ha' => h a ha' ha

theorem Tile.perm (h : Tile parts whole) (hp : parts.Perm parts') : Tile parts' whole where
  apart := hp.pairwise h.apart fun h => h.symm
  cover a := by
    rw [← h.cover a]
    simp only [hp.mem_iff]

/-! ## equal parts -/

def part (start width k : Nat) : AddressRange := ⟨start + k * width, width⟩

theorem part_apart_of_lt (h : k < k') : (part start width k).Apart (part start width k') := by
  intro a ha ha'
  obtain ⟨-, hend⟩ := ha
  obtain ⟨hstart, -⟩ := ha'
  have hnext : k * width + width ≤ k' * width := by
    rw [← Nat.succ_mul]
    exact Nat.mul_le_mul_right width h
  simp only [part] at hend hstart
  omega

theorem exists_part (a : Nat) : (∃ k < n, (part start width k).Has a) ↔
    (⟨start, n * width⟩ : AddressRange).Has a := by
  constructor
  · rintro ⟨k, hk, hstart, hend⟩
    have hlast : k * width + width ≤ n * width := by
      rw [← Nat.succ_mul]
      exact Nat.mul_le_mul_right width hk
    simp only [part] at hstart hend
    refine ⟨?_, ?_⟩ <;> dsimp only <;> omega
  · rintro ⟨hstart, hend⟩
    dsimp only at hstart hend
    have hlt : a - start < n * width := by omega
    have hwidth : 0 < width := Nat.pos_of_ne_zero fun h0 => by simp [h0] at hlt
    have hdiv := Nat.div_add_mod' (a - start) width
    have hmod := Nat.mod_lt (a - start) hwidth
    refine ⟨(a - start) / width, (Nat.div_lt_iff_lt_mul hwidth).mpr hlt, ?_, ?_⟩ <;>
      simp only [part] <;> omega

/-- the parts with the numbers below `n`, in any order -/
theorem tile_parts (start width : Nat) {numbers : List Nat} (h : numbers.Perm (List.range n)) :
    Tile (numbers.map (part start width)) ⟨start, n * width⟩ := by
  refine Tile.perm ⟨?_, fun a => ?_⟩ (h.symm.map _)
  · rw [List.pairwise_map]
    exact List.pairwise_lt_range.imp fun hlt => part_apart_of_lt hlt
  · rw [← exists_part a]
    constructor
    · rintro ⟨p, hp, ha⟩
      obtain ⟨k, hk, rfl⟩ := List.mem_map.mp hp
      exact ⟨k, List.mem_range.mp hk, ha⟩
    · rintro ⟨k, hk, ha⟩
      exact ⟨_, List.mem_map_of_mem (List.mem_range.mpr hk), ha⟩

theorem range_pairs (n : Nat) :
    ((List.range n).flatMap fun k => [k * 2, k * 2 + 1]) = List.range (n * 2) := by
  induction n with
  | zero => rfl
  | succ n ih =>
    rw [List.range_succ, List.flatMap_append, ih, Nat.succ_mul, List.range_succ, List.range_succ,
      List.append_assoc]
    rfl

end AddressRange

end HyperMoE.Lib
