import Mathlib.Data.List.Nodup

/-!
# Launches

The threads of a launch, in the order of a schedule, over a memory that they share.  A thread that
reads or writes outside of the memory fails, and so does the launch.

* `launch`         the threads one after the other;
* `launch_induct`  what holds of the memory, by the threads that are done;
* `launch_cells`   each thread rewrites the cells that it owns: then the schedule does not matter;
* `put`            a write to an array;
* `launch_array`   a thread for each element of an array;
* `Cells`          an array whose elements are written once, and read only then;
* `launch_filled`  a thread for each element of such an array.
-/

namespace HyperMoE.Lib

variable {T S C V : Type}

def launch (body : T → S → Option S) : List T → S → Option S
  | [], s => some s
  | t :: schedule, s => (body t s).bind (launch body schedule)

/-- `Inv done s`: the memory is `s` when the threads of `done` have run -/
theorem launch_induct (Inv : List T → S → Prop) {body : T → S → Option S} {schedule : List T}
    (step : ∀ done t s, t ∈ schedule → t ∉ done → Inv done s →
      ∃ s', body t s = some s' ∧ Inv (done ++ [t]) s')
    (hnodup : schedule.Nodup) {s : S} (h : Inv [] s) :
    ∃ s', launch body schedule s = some s' ∧ Inv schedule s' := by
  have hrun : ∀ todo done s, (done ++ todo).Nodup → (∀ t ∈ todo, t ∈ schedule) → Inv done s →
      ∃ s', launch body todo s = some s' ∧ Inv (done ++ todo) s' := by
    intro todo
    induction todo with
    | nil =>
      intro done s _ _ hs
      rw [List.append_nil]
      exact ⟨s, rfl, hs⟩
    | cons t todo ih =>
      intro done s hnodup hmem hs
      have hnot : t ∉ done := fun ht =>
        (List.nodup_append.mp hnodup).2.2 t ht t List.mem_cons_self rfl
      obtain ⟨s', hbody, hs'⟩ := step done t s (hmem t List.mem_cons_self) hnot hs
      rw [List.append_cons] at hnodup ⊢
      obtain ⟨s'', hlaunch, hs''⟩ :=
        ih (done ++ [t]) s' hnodup (fun t ht => hmem t (List.mem_cons_of_mem _ ht)) hs'
      refine ⟨s'', ?_, hs''⟩
      rw [launch, hbody]
      exact hlaunch
  exact hrun schedule [] s hnodup (fun _ ht => ht) h

variable [DecidableEq T]

/-- The cells go from `before` to `after`, each by its owner.  What a thread finds in the cell of
another one, it may use where the two are equal. -/
theorem launch_cells (cell : S → C → V) (owner : C → T) (before after : C → V) {schedule : List T}
    {body : T → S → Option S}
    (step : ∀ (done : List T) t s, t ∈ schedule → t ∉ done →
      (∀ c, cell s c = if owner c ∈ done then after c else before c) →
      ∃ s', body t s = some s' ∧ ∀ c, cell s' c = if owner c = t then after c else cell s c)
    (hnodup : schedule.Nodup) {s : S} (hbefore : ∀ c, cell s c = before c) :
    ∃ s', launch body schedule s = some s' ∧
      ∀ c, cell s' c = if owner c ∈ schedule then after c else before c := by
  refine launch_induct (fun (done : List T) s =>
    ∀ c, cell s c = if owner c ∈ done then after c else before c) ?_ hnodup fun c => ?_
  · intro done t s hmem hnot hcells
    obtain ⟨s', hbody, hcells'⟩ := step done t s hmem hnot hcells
    refine ⟨s', hbody, fun c => ?_⟩
    rw [hcells', hcells]
    by_cases ht : owner c = t
    · rw [if_pos ht, if_pos (List.mem_append_right _ (List.mem_singleton.mpr ht))]
    · rw [if_neg ht]
      refine if_congr ?_ rfl rfl
      rw [List.mem_append, List.mem_singleton, or_iff_left ht]
  · rw [hbefore, if_neg List.not_mem_nil]

/-! ## arrays -/

/-- `array[i] = v;` -/
def put (array : List V) (i : Nat) (v : V) : Option (List V) :=
  if i < array.length then some (array.set i v) else none

theorem put_eq {array : List V} {i : Nat} (h : i < array.length) (v : V) :
    put array i v = some (array.set i v) := if_pos h

/-- a thread for each element of an array, which it sets -/
theorem launch_array (get : S → List V) (I : S → Prop) (value : Nat → V) {n : Nat}
    {body : Nat → S → Option S} {threads : List Nat} {s : S}
    (step : ∀ (done : List Nat) t s', t ∉ done → t < n → I s' → (get s').length = n →
      (∀ c < n, (get s')[c]? = if c ∈ done then some (value c) else (get s)[c]?) →
      ∃ s'', body t s' = some s'' ∧ I s'' ∧ get s'' = (get s').set t (value t))
    (hthreads : threads.Perm (List.range n)) (hlength : (get s).length = n) (hI : I s) :
    ∃ s', launch body threads s = some s' ∧ I s' ∧ (get s').length = n ∧
      ∀ c < n, (get s')[c]? = some (value c) := by
  have hmem : ∀ c, c ∈ threads ↔ c < n := fun c => hthreads.mem_iff.trans List.mem_range
  have hlaunch : ∃ s', launch body threads s = some s' ∧ (I s' ∧ (get s').length = n) ∧
      ∀ c < n, (get s')[c]? = if c ∈ threads then some (value c) else (get s)[c]? := by
    refine launch_induct (fun (done : List Nat) s' => (I s' ∧ (get s').length = n) ∧
      ∀ c < n, (get s')[c]? = if c ∈ done then some (value c) else (get s)[c]?) ?_
      (hthreads.nodup_iff.mpr List.nodup_range)
      ⟨⟨hI, hlength⟩, fun c _ => by rw [if_neg List.not_mem_nil]⟩
    rintro done t s' ht hnot ⟨⟨hI', hlength'⟩, hcells⟩
    have htn := (hmem t).mp ht
    obtain ⟨s'', hbody, hI'', hset⟩ := step done t s' hnot htn hI' hlength' hcells
    refine ⟨s'', hbody, ⟨hI'', by rw [hset, List.length_set, hlength']⟩, fun c hc => ?_⟩
    rw [hset]
    by_cases hct : c = t
    · subst hct
      rw [List.getElem?_set_self (hlength'.symm ▸ htn),
        if_pos (List.mem_append_right _ (List.mem_singleton_self c))]
    · rw [List.getElem?_set_ne (Ne.symm hct), hcells c hc]
      refine if_congr ?_ rfl rfl
      rw [List.mem_append, List.mem_singleton, or_iff_left hct]
  obtain ⟨s', hlaunch, ⟨hI', hlength'⟩, hcells⟩ := hlaunch
  refine ⟨s', hlaunch, hI', hlength', fun c hc => ?_⟩
  rw [hcells c hc, if_pos ((hmem c).mpr hc)]

/-- `none` is an element that was not written yet -/
abbrev Cells (V : Type) := List (Option V)

namespace Cells

def fresh (n : Nat) : Cells V := List.replicate n none

def write (cells : Cells V) (i : Nat) (v : V) : Option (Cells V) :=
  match cells[i]? with
  | some none => some (cells.set i (some v))
  | _ => none

def read (cells : Cells V) (i : Nat) : Option V := cells[i]?.join

theorem write_eq {cells : Cells V} {i : Nat} (h : cells[i]? = some none) (v : V) :
    cells.write i v = some (cells.set i (some v)) := by
  unfold write
  rw [h]

theorem getElem?_fresh (n c : Nat) : (fresh n : Cells V)[c]? = if c < n then some none else none :=
  List.getElem?_replicate

/-- all elements written -/
def filled (n : Nat) (value : Nat → V) : Cells V := (List.range n).map fun c => some (value c)

theorem getElem?_filled (n : Nat) (value : Nat → V) (c : Nat) :
    (filled n value)[c]? = if c < n then some (some (value c)) else none := by
  unfold filled
  rw [List.getElem?_map]
  split
  · next h => rw [List.getElem?_range h]; rfl
  · next h => rw [List.getElem?_eq_none (by rwa [List.length_range, ← Nat.not_lt])]; rfl

theorem read_filled {n c : Nat} (h : c < n) (value : Nat → V) :
    (filled n value).read c = some (value c) := by
  rw [read, getElem?_filled, if_pos h]
  rfl

/-- a thread for each element, which it writes, and threads that have none -/
theorem launch_filled {body : Nat → Cells V → Option (Cells V)} {n : Nat} {threads : List Nat}
    (value : Nat → V) (hwrite : ∀ c < n, ∀ cells, body c cells = cells.write c (value c))
    (hidle : ∀ c, n ≤ c → ∀ cells, body c cells = some cells)
    (hnodup : threads.Nodup) (hall : ∀ c < n, c ∈ threads) :
    launch body threads (fresh n) = some (filled n value) := by
  have hlaunch : ∃ cells, launch body threads (fresh n) = some cells ∧ ∀ c : Nat, cells[c]? =
      if c ∈ threads then (if c < n then some (some (value c)) else none)
      else if c < n then some none else none := by
    refine launch_cells (fun (cells : Cells V) (c : Nat) => cells[c]?) (fun c => c)
      (fun c => if c < n then some none else none)
      (fun c => if c < n then some (some (value c)) else none) ?_ hnodup (getElem?_fresh n)
    intro done t cells _ hnot hcells
    by_cases hlt : t < n
    · have hfree : cells[t]? = some none := by rw [hcells, if_neg hnot, if_pos hlt]
      refine ⟨cells.set t (some (value t)), ?_, fun c => ?_⟩
      · rw [hwrite t hlt, write_eq hfree]
      · by_cases hc : c = t
        · subst hc
          rw [List.getElem?_set_self (List.getElem?_eq_some_iff.mp hfree).1, if_pos rfl, if_pos hlt]
        · rw [List.getElem?_set_ne (Ne.symm hc), if_neg hc]
    · refine ⟨cells, hidle t (Nat.le_of_not_lt hlt) cells, fun c => ?_⟩
      by_cases hc : c = t
      · subst hc
        rw [hcells, if_neg hnot, if_neg hlt, if_pos rfl, if_neg hlt]
      · rw [if_neg hc]
  obtain ⟨cells, hlaunch, hcells⟩ := hlaunch
  rw [hlaunch]
  refine congrArg some (List.ext_getElem? fun c => ?_)
  rw [hcells, getElem?_filled]
  by_cases hlt : c < n
  · rw [if_pos (hall c hlt)]
  · rw [if_neg hlt, if_neg hlt, ite_self]

end Cells

end HyperMoE.Lib
