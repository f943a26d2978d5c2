import Mathlib.Algebra.BigOperators.Group.Finset.Piecewise
import Mathlib.Algebra.BigOperators.Ring.List
import Mathlib.Algebra.Order.BigOperators.Group.List
import Mathlib.Algebra.Order.Field.Basic
import Mathlib.Tactic.Linarith
import Mathlib.Tactic.Tauto

/-!
# Weights that are cut and drawn from

* `spread n support w`       `n` weights: `w` on the support, zero elsewhere;
* `crossing passed c ws`     the first place at which the running sum passes a test;
* `Nucleus`                  the shortest prefix that has a share of the whole weight;
* `nucleus_crossing`         it ends where the running sum reaches the share;
* `crossing_draw`            what a number below the sum draws has a weight.
-/

namespace HyperMoE.Lib

variable {K : Type} [Field K]

/-! ## weights on a support -/

def spread (n : Nat) (support : List Nat) (w : Nat → K) : List K :=
  (List.range n).map fun index => if index ∈ support then w index else 0

section
variable {n : Nat} {support : List Nat} {w : Nat → K}

theorem length_spread : (spread n support w).length = n := by
  rw [spread, List.length_map, List.length_range]

theorem getElem?_spread {index : Nat} (h : index < n) :
    (spread n support w)[index]? = some (if index ∈ support then w index else 0) := by
  rw [spread, List.getElem?_map, List.getElem?_range h]
  rfl

theorem getD_spread {index : Nat} (h : index < n) :
    (spread n support w).getD index 0 = if index ∈ support then w index else 0 := by
  rw [List.getD_eq_getElem?_getD, getElem?_spread h]
  rfl

theorem spread_congr {support' : List Nat} {w' : Nat → K}
    (hsupport : ∀ index, index ∈ support ↔ index ∈ support')
    (hw : ∀ index ∈ support, w index = w' index) : spread n support w = spread n support' w' := by
  refine List.map_congr_left fun index _ => ?_
  by_cases h : index ∈ support
  · rw [if_pos h, if_pos ((hsupport index).mp h), hw index h]
  · rw [if_neg h, if_neg fun h' => h ((hsupport index).mpr h')]

theorem spread_nil : spread n [] w = List.replicate n 0 := by
  refine List.eq_replicate_iff.mpr ⟨length_spread, fun x hx => ?_⟩
  obtain ⟨index, _, rfl⟩ := List.mem_map.mp hx
  exact if_neg List.not_mem_nil

theorem spread_set (index : Nat) (x : K) :
    (spread n support w).set index x =
      spread n (index :: support) fun index' => if index' = index then x else w index' := by
  refine List.ext_getElem? fun index' => ?_
  rw [List.getElem?_set, length_spread]
  by_cases hlt : index' < n
  · rw [getElem?_spread hlt, getElem?_spread hlt]
    by_cases he : index = index'
    · subst he
      rw [if_pos rfl, if_pos hlt, if_pos rfl]
      exact congrArg some (if_pos List.mem_cons_self).symm
    · rw [if_neg he, if_neg (Ne.symm he)]
      refine congrArg some (if_congr ?_ rfl rfl)
      rw [List.mem_cons, or_iff_right (Ne.symm he)]
  · have hnone : ∀ (support : List Nat) (w : Nat → K), (spread n support w)[index']? = none :=
      fun support w => List.getElem?_eq_none (by rw [length_spread]; omega)
    rw [hnone, hnone]
    by_cases he : index = index'
    · rw [if_pos he, if_neg (he ▸ hlt)]
    · rw [if_neg he]

/-- a loop that sets weights -/
theorem foldl_set (f : Nat → K) (indices : List Nat) :
    ∀ support w, indices.foldl (fun result index => result.set index (f index))
        (spread n support w) =
      spread n (support ++ indices) fun index => if index ∈ indices then f index else w index := by
  induction indices with
  | nil =>
    intro support w
    rw [List.append_nil]
    exact spread_congr (fun _ => Iff.rfl) fun index _ => (if_neg List.not_mem_nil).symm
  | cons first rest ih =>
    intro support w
    rw [List.foldl_cons, spread_set, ih]
    refine spread_congr (fun index => ?_) fun index _ => ?_
    · simp only [List.mem_append, List.mem_cons]
      tauto
    · simp only [List.mem_cons]
      by_cases hrest : index ∈ rest
      · rw [if_pos hrest, if_pos (Or.inr hrest)]
      · rw [if_neg hrest]
        by_cases hfirst : index = first
        · rw [if_pos hfirst, if_pos (Or.inl hfirst), hfirst]
        · rw [if_neg hfirst, if_neg (not_or.mpr ⟨hfirst, hrest⟩)]

theorem spread_div (x : K) : (spread n support w).map (fun p => p / x) =
    spread n support fun index => w index / x := by
  rw [spread, List.map_map]
  refine List.map_congr_left fun index _ => ?_
  show (if index ∈ support then w index else 0) / x = _
  split
  · rfl
  · exact zero_div x

theorem sum_map_div {α : Type} (l : List α) (weight : α → K) (x : K) :
    (l.map fun a => weight a / x).sum = (l.map weight).sum / x := by
  simp only [div_eq_mul_inv]
  exact List.sum_map_mul_right l weight x⁻¹

theorem sum_spread (hnodup : support.Nodup) (hlt : ∀ index ∈ support, index < n) :
    (spread n support w).sum = (support.map w).sum := by
  have hsub : support.toFinset ⊆ Finset.range n := fun index h =>
    Finset.mem_range.mpr (hlt index (List.mem_toFinset.mp h))
  calc (spread n support w).sum
      = ∑ index ∈ Finset.range n, if index ∈ support then w index else 0 := rfl
    _ = ∑ index ∈ Finset.range n, if index ∈ support.toFinset then w index else 0 :=
        Finset.sum_congr rfl fun index _ => if_congr List.mem_toFinset.symm rfl rfl
    _ = ∑ index ∈ support.toFinset, w index := by
        rw [Finset.sum_ite_mem, Finset.inter_eq_right.mpr hsub]
    _ = (support.map w).sum := List.sum_toFinset w hnodup

end

/-! ## running sums -/

def crossing (passed : K → Prop) [DecidablePred passed] : K → List K → Option Nat
  | _, [] => none
  | c, w :: ws =>
    if passed (c + w) then some 0 else (crossing passed (c + w) ws).map (· + 1)

section
variable {passed : K → Prop} [DecidablePred passed]

theorem crossing_eq_some {ws : List K} : ∀ {c : K} {k : Nat}, crossing passed c ws = some k →
    k < ws.length ∧ passed (c + (ws.take (k + 1)).sum) ∧
      ∀ j < k, ¬ passed (c + (ws.take (j + 1)).sum) := by
  induction ws with
  | nil => exact fun h => nomatch h
  | cons w ws ih =>
    intro c k h
    rw [crossing] at h
    split at h
    · next hpassed =>
      obtain rfl := Option.some.inj h
      refine ⟨Nat.zero_lt_succ _, ?_, fun j hj => absurd hj (Nat.not_lt_zero j)⟩
      rwa [List.take_succ_cons, List.take_zero, List.sum_singleton]
    · next hnot =>
      obtain ⟨k, hk, rfl⟩ := Option.map_eq_some_iff.mp h
      obtain ⟨hlt, hpassed, hbefore⟩ := ih hk
      refine ⟨Nat.succ_lt_succ hlt, ?_, fun j hj => ?_⟩
      · rwa [List.take_succ_cons, List.sum_cons, ← add_assoc]
      · rw [List.take_succ_cons, List.sum_cons, ← add_assoc]
        cases j with
        | zero => rwa [List.take_zero, List.sum_nil, add_zero]
        | succ j => exact hbefore j (Nat.lt_of_succ_lt_succ hj)

theorem crossing_eq_none {ws : List K} : ∀ {c : K}, crossing passed c ws = none →
    ∀ j < ws.length, ¬ passed (c + (ws.take (j + 1)).sum) := by
  induction ws with
  | nil => exact fun _ j hj => absurd hj (Nat.not_lt_zero j)
  | cons w ws ih =>
    intro c h j hj
    rw [crossing] at h
    split at h
    · exact nomatch h
    · next hnot =>
      rw [List.take_succ_cons, List.sum_cons, ← add_assoc]
      cases j with
      | zero => rwa [List.take_zero, List.sum_nil, add_zero]
      | succ j => exact ih (Option.map_eq_none_iff.mp h) j (Nat.lt_of_succ_lt_succ hj)

/-- if the whole sum passes, there is a first place -/
theorem crossing_of_passed (passed : K → Prop) [DecidablePred passed] {ws : List K} {c : K} (hne : ws ≠ []) (h : passed (c + ws.sum)) :
    ∃ k, crossing passed c ws = some k := by
  cases hcrossing : crossing passed c ws with
  | some k => exact ⟨k, rfl⟩
  | none =>
    have hpos : 0 < ws.length := List.length_pos_iff.mpr hne
    have hlast := crossing_eq_none hcrossing (ws.length - 1) (by omega)
    rw [Nat.sub_add_cancel hpos, List.take_length] at hlast
    exact absurd h hlast

end

/-! ## drawing -/

variable [LinearOrder K]

theorem crossing_draw [IsStrictOrderedRing K] {ws : List K} {draw : K} (hdraw : 0 ≤ draw) (hsum : draw < ws.sum) :
    ∃ k w, crossing (draw < ·) 0 ws = some k ∧ ws[k]? = some w ∧ 0 < w := by
  have hne : ws ≠ [] := by
    rintro rfl
    exact absurd (hdraw.trans_lt hsum) (lt_irrefl _)
  obtain ⟨k, hk⟩ := crossing_of_passed (draw < ·) hne ((zero_add ws.sum).symm ▸ hsum)
  obtain ⟨hlt, hpassed, hbefore⟩ := crossing_eq_some hk
  refine ⟨k, ws[k], hk, List.getElem?_eq_getElem hlt, ?_⟩
  rw [zero_add, List.sum_take_succ ws k hlt] at hpassed
  -- the sum before the place is at most the number that is drawn
  have hle : (ws.take k).sum ≤ draw := by
    cases k with
    | zero => exact hdraw
    | succ j => exact not_lt.mp (zero_add (ws.take (j + 1)).sum ▸ hbefore j (Nat.lt_succ_self j))
  linarith

/-! ## the shortest prefix with a share -/

variable {α : Type}

structure Nucleus (weight : α → K) (p : K) (ranked chosen : List α) : Prop where
  isPrefix : chosen <+: ranked
  reaches : p ≤ (chosen.map weight).sum / (ranked.map weight).sum
  shortest : ∀ shorter, shorter <+: ranked → shorter.length < chosen.length →
    (shorter.map weight).sum / (ranked.map weight).sum < p

section
variable {weight : α → K} {p : K} {ranked chosen : List α}

theorem Nucleus.ne_nil (h : Nucleus weight p ranked chosen) (hp : 0 < p) : chosen ≠ [] := by
  rintro rfl
  have hreaches := h.reaches
  rw [List.map_nil, List.sum_nil, zero_div] at hreaches
  exact absurd hp (not_lt.mpr hreaches)

/-- weights in another unit -/
theorem Nucleus.unscale {c : K} (hc : c ≠ 0)
    (h : Nucleus (fun a => weight a * c) p ranked chosen) : Nucleus weight p ranked chosen := by
  have hshare : ∀ l : List α, (l.map fun a => weight a * c).sum /
      (ranked.map fun a => weight a * c).sum = (l.map weight).sum / (ranked.map weight).sum := by
    intro l
    rw [List.sum_map_mul_right, List.sum_map_mul_right, mul_div_mul_right _ _ hc]
  exact ⟨h.isPrefix, hshare chosen ▸ h.reaches, fun shorter hfront hlength =>
    hshare shorter ▸ h.shortest shorter hfront hlength⟩

variable [IsStrictOrderedRing K]

theorem sum_map_pos (hpos : ∀ a ∈ ranked, 0 < weight a) (hne : ranked ≠ []) :
    0 < (ranked.map weight).sum := by
  refine List.sum_pos _ (fun x hx => ?_) fun h => hne (List.map_eq_nil_iff.mp h)
  obtain ⟨a, ha, rfl⟩ := List.mem_map.mp hx
  exact hpos a ha

/-- the whole is the only prefix with all of the weight -/
theorem Nucleus.whole (hpos : ∀ a ∈ ranked, 0 < weight a) (hne : ranked ≠ []) :
    Nucleus weight 1 ranked ranked where
  isPrefix := List.prefix_refl ranked
  reaches := by rw [div_self (sum_map_pos hpos hne).ne']
  shortest shorter hfront hlength := by
    obtain ⟨rest, rfl⟩ := hfront
    have hrest : rest ≠ [] := by
      rintro rfl
      rw [List.append_nil] at hlength
      exact absurd hlength (lt_irrefl _)
    have hmore := sum_map_pos (fun a ha => hpos a (List.mem_append_right _ ha)) hrest
    rw [div_lt_one (sum_map_pos hpos hne), List.map_append, List.sum_append]
    linarith

theorem Nucleus.eq_whole (hpos : ∀ a ∈ ranked, 0 < weight a) (h : Nucleus weight 1 ranked chosen) :
    chosen = ranked := by
  obtain ⟨rest, rfl⟩ := h.isPrefix
  by_cases hrest : rest = []
  · rw [hrest, List.append_nil]
  · have hne : chosen ++ rest ≠ [] := fun he => hrest (List.append_eq_nil_iff.mp he).2
    have hreaches := (one_le_div (sum_map_pos hpos hne)).mp h.reaches
    have hmore := sum_map_pos (fun a ha => hpos a (List.mem_append_right _ ha)) hrest
    rw [List.map_append, List.sum_append] at hreaches
    linarith

/-- it ends where the running sum of the shares reaches `p` -/
theorem nucleus_crossing (hpos : ∀ a ∈ ranked, 0 < weight a) (hne : ranked ≠ []) (hp : 0 < p)
    (hone : p ≤ 1) :
    ∃ k, crossing (p ≤ ·) 0 (ranked.map fun a => weight a / (ranked.map weight).sum) = some k ∧
      Nucleus weight p ranked (ranked.take (k + 1)) := by
  have htotal : p ≤ 0 + (ranked.map fun a => weight a / (ranked.map weight).sum).sum := by
    rw [zero_add, sum_map_div, div_self (sum_map_pos hpos hne).ne']
    exact hone
  obtain ⟨k, hk⟩ := crossing_of_passed (p ≤ ·)
    (fun h => hne (List.map_eq_nil_iff.mp h)) htotal
  obtain ⟨_, hpassed, hbefore⟩ := crossing_eq_some hk
  simp only [← List.map_take, sum_map_div, zero_add, not_le] at hpassed hbefore
  refine ⟨k, hk, List.take_prefix _ _, hpassed, fun shorter hfront hlength => ?_⟩
  rw [List.prefix_iff_eq_take.mp hfront]
  rw [List.length_take] at hlength
  cases hshorter : shorter.length with
  | zero => rwa [List.take_zero, List.map_nil, List.sum_nil, zero_div]
  | succ j => exact hbefore j (by omega)

end

end HyperMoE.Lib
