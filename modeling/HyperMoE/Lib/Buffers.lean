import Mathlib.Algebra.BigOperators.Group.Finset.Basic
import Mathlib.Algebra.BigOperators.Group.List.Basic
import Mathlib.Data.List.GetD
import HyperMoE.Lib.Launch

/-!
# Launches over a buffer

The threads of a launch share an array that has contents already.  Either every thread rewrites
elements of its own, for which it may read what they were, or the threads add to elements that they
have in common.

* `foldlM_range`   a loop, by what holds after each round;
* `foldlM_fill`    a loop over consecutive elements;
* `launch_owned`   every thread rewrites the elements that it owns;
* `addAt`          an atomic addition;
* `launch_adds`    every thread adds to one element.
-/

namespace HyperMoE.Lib

variable {V : Type}

theorem eq_map_range {l : List V} {n : Nat} {value : Nat → V} (hlength : l.length = n)
    (h : ∀ c < n, l[c]? = some (value c)) : l = (List.range n).map value := by
  refine List.ext_getElem (by rw [hlength, List.length_map, List.length_range]) fun c hc hc' => ?_
  have hget := h c (hlength ▸ hc)
  rw [List.getElem?_eq_getElem hc] at hget
  rw [Option.some.inj hget, List.getElem_map, List.getElem_range]

/-- `for (i < n) ...` with what holds after `i` rounds -/
theorem foldlM_range {S : Type} (step : S → Nat → Option S) (I : Nat → S → Prop) {n : Nat} {s : S}
    (h : I 0 s) (hstep : ∀ i < n, ∀ s, I i s → ∃ s', step s i = some s' ∧ I (i + 1) s') :
    ∃ s', (List.range n).foldlM step s = some s' ∧ I n s' := by
  induction n with
  | zero => exact ⟨s, rfl, h⟩
  | succ n ih =>
    obtain ⟨s', hloop, hs'⟩ := ih fun i hi => hstep i (Nat.lt_succ_of_lt hi)
    obtain ⟨s'', hlast, hs''⟩ := hstep n (Nat.lt_succ_self n) s' hs'
    refine ⟨s'', ?_, hs''⟩
    rw [List.range_succ, List.foldlM_append, hloop]
    show (step s' n).bind some = _
    rw [hlast]
    rfl

/-- `for (c < width) array[first + c] = value;`, where a value may depend on the element that it
replaces -/
theorem foldlM_fill (step : List V → Nat → Option (List V)) {first width : Nat} (value : Nat → V)
    {array : List V} (hbound : first + width ≤ array.length)
    (hstep : ∀ c < width, ∀ array' : List V, array'.length = array.length →
      array'[first + c]? = array[first + c]? → step array' c = put array' (first + c) (value c)) :
    ∃ array', (List.range width).foldlM step array = some array' ∧ array'.length = array.length ∧
      ∀ c, array'[c]? = if first ≤ c ∧ c < first + width then some (value (c - first))
        else array[c]? := by
  refine (foldlM_range step (fun i (array' : List V) => array'.length = array.length ∧
    ∀ c, array'[c]? = if first ≤ c ∧ c < first + i then some (value (c - first)) else array[c]?)
    ⟨rfl, fun c => by rw [if_neg (by omega)]⟩ ?_)
  rintro i hi array' ⟨hlength, hget⟩
  have hlt : first + i < array'.length := by omega
  refine ⟨array'.set (first + i) (value i), ?_, ?_, fun c => ?_⟩
  · rw [hstep i hi array' hlength, put_eq hlt]
    rw [hget, if_neg (by omega)]
  · rw [List.length_set, hlength]
  · by_cases hc : c = first + i
    · subst hc
      rw [List.getElem?_set_self hlt, if_pos (by omega), Nat.add_sub_cancel_left]
    · rw [List.getElem?_set_ne (Ne.symm hc), hget]
      exact if_congr (by omega) rfl rfl

theorem launch_owned (owner : Nat → Nat) (value : Nat → V) {n : Nat}
    {body : Nat → List V → Option (List V)} {threads : List Nat} {array : List V}
    (hbody : ∀ t ∈ threads, ∀ array' : List V, array'.length = n →
      (∀ c < n, owner c = t → array'[c]? = array[c]?) →
      ∃ array'', body t array' = some array'' ∧ array''.length = n ∧
        ∀ c < n, array''[c]? = if owner c = t then some (value c) else array'[c]?)
    (hnodup : threads.Nodup) (hall : ∀ c < n, owner c ∈ threads) (hlength : array.length = n) :
    launch body threads array = some ((List.range n).map value) := by
  have hlaunch : ∃ array', launch body threads array = some array' ∧ array'.length = n ∧
      ∀ c < n, array'[c]? = if owner c ∈ threads then some (value c) else array[c]? := by
    refine launch_induct (fun (done : List Nat) (array' : List V) => array'.length = n ∧
      ∀ c < n, array'[c]? = if owner c ∈ done then some (value c) else array[c]?) ?_ hnodup
      ⟨hlength, fun c _ => by rw [if_neg List.not_mem_nil]⟩
    rintro done t array' ht hnot ⟨hlength', hget⟩
    obtain ⟨array'', hrun, hlength'', hget'⟩ := hbody t ht array' hlength' fun c hc howner => by
      rw [hget c hc, if_neg (howner ▸ hnot)]
    refine ⟨array'', hrun, hlength'', fun c hc => ?_⟩
    rw [hget' c hc, hget c hc]
    by_cases howner : owner c = t
    · rw [if_pos howner, if_pos (List.mem_append_right _ (List.mem_singleton.mpr howner))]
    · rw [if_neg howner]
      refine if_congr ?_ rfl rfl
      rw [List.mem_append, List.mem_singleton, or_iff_left howner]
  obtain ⟨array', hrun, hlength', hget⟩ := hlaunch
  rw [hrun, eq_map_range hlength' fun c hc => by rw [hget c hc, if_pos (hall c hc)]]

/-! ## additions -/

section
variable [AddCommMonoid V]

/-- `atomicAdd(array + i, v);` -/
def addAt (array : List V) (i : Nat) (v : V) : Option (List V) := do
  let old ← array[i]?
  put array i (old + v)

theorem addAt_eq {array : List V} {i : Nat} (h : i < array.length) (v : V) :
    addAt array i v = some (array.set i (array.getD i 0 + v)) := by
  unfold addAt
  rw [List.getElem?_eq_getElem h, List.getD_eq_getElem _ _ h]
  exact put_eq h _

theorem getD_set_add {array : List V} {i : Nat} (h : i < array.length) (v : V) (c : Nat) :
    (array.set i (array.getD i 0 + v)).getD c 0 = array.getD c 0 + if i = c then v else 0 := by
  by_cases hc : i = c
  · subst hc
    rw [if_pos rfl, List.getD_eq_getElem?_getD, List.getElem?_set_self h]
    rfl
  · rw [if_neg hc, add_zero, List.getD_eq_getElem?_getD, List.getElem?_set_ne hc,
      List.getD_eq_getElem?_getD]

/-- a sum over the elements of a matrix, row by row -/
theorem sum_rows (m n : Nat) (f : Nat → V) :
    ∑ t ∈ Finset.range (m * n), f t =
      ∑ r ∈ Finset.range m, ∑ c ∈ Finset.range n, f (r * n + c) := by
  induction m with
  | zero => rw [Nat.zero_mul, Finset.sum_range_zero, Finset.sum_range_zero]
  | succ m ih => rw [Nat.succ_mul, Finset.sum_range_add, ih, Finset.sum_range_succ]

/-- `m` threads add, the others do nothing: every element has what was added to it, whatever the
order -/
theorem launch_adds {m n : Nat} (target : Nat → Nat) (value : Nat → V)
    {body : Nat → List V → Option (List V)} {threads : List Nat} {array : List V}
    (hbody : ∀ t < m, ∀ array', body t array' = addAt array' (target t) (value t))
    (hidle : ∀ t, m ≤ t → ∀ array', body t array' = some array')
    (htarget : ∀ t < m, target t < n) (hnodup : threads.Nodup) (hall : ∀ t < m, t ∈ threads)
    (hlength : array.length = n) :
    ∃ array', launch body threads array = some array' ∧ array'.length = n ∧ ∀ c,
      array'.getD c 0 = array.getD c 0 + ∑ t ∈ Finset.range m, if target t = c then value t else 0 := by
  let amount (c t : Nat) : V := if t < m then if target t = c then value t else 0 else 0
  have hlaunch : ∃ array', launch body threads array = some array' ∧ array'.length = n ∧
      ∀ c, array'.getD c 0 = array.getD c 0 + (threads.map (amount c)).sum := by
    refine launch_induct (fun (done : List Nat) (array' : List V) => array'.length = n ∧
      ∀ c, array'.getD c 0 = array.getD c 0 + (done.map (amount c)).sum) ?_ hnodup
      ⟨hlength, fun c => (add_zero _).symm⟩
    rintro done t array' - - ⟨hlength', hget⟩
    have hsum : ∀ c, ((done ++ [t]).map (amount c)).sum = (done.map (amount c)).sum + amount c t :=
      fun c => by rw [List.map_append, List.sum_append, List.map_singleton, List.sum_singleton]
    by_cases ht : t < m
    · have hlt : target t < array'.length := hlength'.symm ▸ htarget t ht
      refine ⟨_, (hbody t ht array').trans (addAt_eq hlt _), ?_, fun c => ?_⟩
      · rw [List.length_set, hlength']
      · rw [getD_set_add hlt, hget, hsum, ← add_assoc]
        exact congrArg _ (if_pos ht).symm
    · refine ⟨array', hidle t (Nat.le_of_not_lt ht) array', hlength', fun c => ?_⟩
      rw [hget, hsum, show amount c t = 0 from if_neg ht, add_zero]
  obtain ⟨array', hrun, hlength', hget⟩ := hlaunch
  refine ⟨array', hrun, hlength', fun c => ?_⟩
  rw [hget, ← List.sum_toFinset _ hnodup]
  refine congrArg _ (Eq.symm ?_)
  have hsub : Finset.range m ⊆ threads.toFinset := fun t ht =>
    List.mem_toFinset.mpr (hall t (Finset.mem_range.mp ht))
  rw [← Finset.sum_subset hsub fun t _ ht => if_neg fun hlt => ht (Finset.mem_range.mpr hlt)]
  exact Finset.sum_congr rfl fun t ht => (if_pos (Finset.mem_range.mp ht)).symm

end

end HyperMoE.Lib
