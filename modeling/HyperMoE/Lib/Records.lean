import HyperMoE.Lib.Grid
import Mathlib.Data.List.Nodup

/-!
# Records of one width

A sequence that is cut into records of one width, and copies of records into a sequence.

* `slice`          the elements of a range;
* `copyAt`         a range is overwritten;
* `record`         the record with a number;
* `scatter`        records copied one after another;
* `record_scatter` what the records are then, if no two copies go to the same place;
* `transpose`      a matrix of records, copied into the other order.
-/

namespace HyperMoE.Lib

variable {V : Type} {l l' part : List V} {start width k k' n : Nat}

def slice (l : List V) (start width : Nat) : List V := (l.drop start).take width

/-- `memcpy(l + start, part, part.size())` -/
def copyAt (l : List V) (start : Nat) (part : List V) : List V :=
  l.take start ++ part ++ l.drop (start + part.length)

def record (width : Nat) (l : List V) (k : Nat) : List V := slice l (k * width) width

/-! ## one copy -/

theorem getElem?_slice (l : List V) (start width i : Nat) :
    (slice l start width)[i]? = if i < width then l[start + i]? else none := by
  unfold slice
  rw [List.getElem?_take, List.getElem?_drop]

theorem length_slice (h : start + width ≤ l.length) : (slice l start width).length = width := by
  unfold slice
  rw [List.length_take, List.length_drop]
  omega

theorem length_copyAt (h : start + part.length ≤ l.length) :
    (copyAt l start part).length = l.length := by
  unfold copyAt
  simp only [List.length_append, List.length_take, List.length_drop]
  omega

theorem getElem?_copyAt (h : start + part.length ≤ l.length) (i : Nat) :
    (copyAt l start part)[i]? =
      if start ≤ i ∧ i < start + part.length then part[i - start]? else l[i]? := by
  have htake : (l.take start).length = start := by
    rw [List.length_take]
    omega
  unfold copyAt
  rw [List.append_assoc]
  rcases Nat.lt_or_ge i start with hlt | hge
  · rw [if_neg (by omega), List.getElem?_append_left (by omega), List.getElem?_take, if_pos hlt]
  rw [List.getElem?_append_right (by omega), htake]
  rcases Nat.lt_or_ge i (start + part.length) with hlt | hge'
  · rw [if_pos ⟨hge, hlt⟩, List.getElem?_append_left (by omega)]
  · rw [if_neg (by omega), List.getElem?_append_right (by omega), List.getElem?_drop]
    congr 1
    omega

/-! ## records -/

/-- the record with the number lies inside -/
theorem record_bound (width : Nat) (h : k < n) : k * width + width ≤ n * width := by
  rw [← Nat.succ_mul]
  exact Nat.mul_le_mul_right width h

theorem length_record (hlength : l.length = n * width) (h : k < n) :
    (record width l k).length = width :=
  length_slice (hlength ▸ record_bound width h)

theorem record_copyAt_self (hlength : l.length = n * width) (h : k < n) (hpart : part.length = width) :
    record width (copyAt l (k * width) part) k = part := by
  have hbound := record_bound width h
  apply List.ext_getElem?
  intro i
  unfold record
  rw [getElem?_slice]
  split
  · rw [getElem?_copyAt (by omega), if_pos (by omega), Nat.add_sub_cancel_left]
  · rw [List.getElem?_eq_none (by omega)]

theorem record_copyAt_ne (hlength : l.length = n * width) (h : k < n) (hpart : part.length = width)
    (hne : k' ≠ k) : record width (copyAt l (k * width) part) k' = record width l k' := by
  have hbound := record_bound width h
  apply List.ext_getElem?
  intro i
  unfold record
  rw [getElem?_slice, getElem?_slice]
  split
  · next hi =>
    rw [getElem?_copyAt (by omega), if_neg]
    rcases Nat.lt_or_gt_of_ne hne with hlt | hgt
    · have hbefore := record_bound width hlt
      omega
    · have hbehind := record_bound width hgt
      omega
  · rfl

/-- two sequences with the same records -/
theorem ext_record (hlength : l.length = n * width) (hlength' : l'.length = n * width)
    (h : ∀ k < n, record width l k = record width l' k) : l = l' := by
  apply List.ext_getElem?
  intro i
  rcases Nat.lt_or_ge i (n * width) with hi | hi
  · have hwidth : 0 < width := Nat.pos_of_ne_zero fun h0 => by simp [h0] at hi
    have hk : i / width < n := (Nat.div_lt_iff_lt_mul hwidth).mpr hi
    have hget := congrArg (fun part => part[i % width]?) (h (i / width) hk)
    simp only [record, getElem?_slice, Nat.mod_lt i hwidth, ↓reduceIte, Nat.div_add_mod'] at hget
    exact hget
  · rw [List.getElem?_eq_none (by omega), List.getElem?_eq_none (by omega)]

/-- the records, each copied to the place with its number -/
def scatter (width : Nat) (l : List V) (copies : List (Nat × List V)) : List V :=
  copies.foldl (fun l copy => copyAt l (copy.1 * width) copy.2) l

theorem length_scatter {copies : List (Nat × List V)} (hlength : l.length = n * width)
    (hcopies : ∀ copy ∈ copies, copy.1 < n ∧ copy.2.length = width) :
    (scatter width l copies).length = n * width := by
  induction copies generalizing l with
  | nil => exact hlength
  | cons copy copies ih =>
    obtain ⟨hlt, hpart⟩ := hcopies copy List.mem_cons_self
    have hbound := record_bound width hlt
    refine ih ?_ fun c hc => hcopies c (List.mem_cons_of_mem _ hc)
    rw [length_copyAt (by omega), hlength]

theorem record_scatter_of_not_mem {copies : List (Nat × List V)} (hlength : l.length = n * width)
    (hcopies : ∀ copy ∈ copies, copy.1 < n ∧ copy.2.length = width)
    (h : k ∉ copies.map Prod.fst) : record width (scatter width l copies) k = record width l k := by
  induction copies generalizing l with
  | nil => rfl
  | cons copy copies ih =>
    obtain ⟨hlt, hpart⟩ := hcopies copy List.mem_cons_self
    have hbound := record_bound width hlt
    rw [List.map_cons, List.mem_cons, not_or] at h
    refine (ih ?_ (fun c hc => hcopies c (List.mem_cons_of_mem _ hc)) h.2).trans ?_
    · rw [length_copyAt (by omega), hlength]
    · exact record_copyAt_ne hlength hlt hpart h.1

/-- copies to different places: every record is the one that was copied there -/
theorem record_scatter {copies : List (Nat × List V)} (hlength : l.length = n * width)
    (hcopies : ∀ copy ∈ copies, copy.1 < n ∧ copy.2.length = width)
    (hnodup : (copies.map Prod.fst).Nodup) {copy : Nat × List V} (hcopy : copy ∈ copies) :
    record width (scatter width l copies) copy.1 = copy.2 := by
  induction copies generalizing l with
  | nil => cases hcopy
  | cons first copies ih =>
    obtain ⟨hlt, hpart⟩ := hcopies first List.mem_cons_self
    have hbound := record_bound width hlt
    have hrest : ∀ c ∈ copies, c.1 < n ∧ c.2.length = width :=
      fun c hc => hcopies c (List.mem_cons_of_mem _ hc)
    have hlength' : (copyAt l (first.1 * width) first.2).length = n * width := by
      rw [length_copyAt (by omega), hlength]
    rw [List.map_cons, List.nodup_cons] at hnodup
    rcases List.mem_cons.mp hcopy with rfl | hcopy
    · refine (record_scatter_of_not_mem hlength' hrest hnodup.1).trans ?_
      exact record_copyAt_self hlength hlt hpart
    · exact ih hlength' hrest hnodup.2 hcopy

/-! ## a matrix of records -/

/-- `for (row ...) for (column ...)`: the record of the pair goes to the pair turned around -/
def transposeCopies (width rows columns : Nat) (source : List V) : List (Nat × List V) :=
  (List.range rows).flatMap fun row => (List.range columns).map fun column =>
    (column * rows + row, record width source (row * columns + column))

def transpose (width rows columns : Nat) (source out : List V) : List V :=
  scatter width out (transposeCopies width rows columns source)

section
variable {rows columns row column : Nat} {source out : List V}

theorem mem_transposeCopies {copy : Nat × List V} : copy ∈ transposeCopies width rows columns source ↔
    ∃ row < rows, ∃ column < columns,
      copy = (column * rows + row, record width source (row * columns + column)) := by
  unfold transposeCopies
  simp only [List.mem_flatMap, List.mem_map, List.mem_range]
  constructor
  · rintro ⟨row, hrow, column, hcolumn, rfl⟩
    exact ⟨row, hrow, column, hcolumn, rfl⟩
  · rintro ⟨row, hrow, column, hcolumn, rfl⟩
    exact ⟨row, hrow, column, hcolumn, rfl⟩

theorem inside_transposeCopies (hsource : source.length = rows * columns * width) :
    ∀ copy ∈ transposeCopies width rows columns source,
      copy.1 < columns * rows ∧ copy.2.length = width := by
  intro copy hcopy
  obtain ⟨row, hrow, column, hcolumn, rfl⟩ := mem_transposeCopies.mp hcopy
  exact ⟨Grid.address_lt hcolumn hrow, length_record hsource (Grid.address_lt hrow hcolumn)⟩

/-- no two pairs go to the same place -/
theorem nodup_transposeCopies :
    ((transposeCopies width rows columns source).map Prod.fst).Nodup := by
  have hfst : (transposeCopies width rows columns source).map Prod.fst =
      (List.range rows).flatMap fun row => (List.range columns).map fun column =>
        column * rows + row := by
    unfold transposeCopies
    rw [List.map_flatMap]
    simp only [List.map_map]
    rfl
  rw [hfst, List.nodup_flatMap]
  constructor
  · intro row hrow
    rw [List.mem_range] at hrow
    exact List.nodup_range.map fun column column' h => ((Grid.address_inj hrow hrow).mp h).1
  · refine List.pairwise_lt_range.imp_of_mem fun {row row'} hrow hrow' hlt => ?_
    rw [List.mem_range] at hrow hrow'
    intro place hplace hplace'
    obtain ⟨column, -, rfl⟩ := List.mem_map.mp hplace
    obtain ⟨column', -, h⟩ := List.mem_map.mp hplace'
    have := ((Grid.address_inj hrow' hrow).mp h).2
    omega

theorem length_transpose (hsource : source.length = rows * columns * width)
    (hout : out.length = source.length) :
    (transpose width rows columns source out).length = source.length := by
  have hlength : out.length = columns * rows * width := by
    rw [hout, hsource, Nat.mul_comm rows]
  rw [hsource, Nat.mul_comm rows]
  exact length_scatter hlength (inside_transposeCopies hsource)

/-- The record of a pair is that of the pair turned around. -/
theorem record_transpose (hsource : source.length = rows * columns * width)
    (hout : out.length = source.length) (hrow : row < rows) (hcolumn : column < columns) :
    record width (transpose width rows columns source out) (column * rows + row) =
      record width source (row * columns + column) := by
  have hlength : out.length = columns * rows * width := by
    rw [hout, hsource, Nat.mul_comm rows]
  have hmem : (column * rows + row, record width source (row * columns + column)) ∈
      transposeCopies width rows columns source :=
    mem_transposeCopies.mpr ⟨row, hrow, column, hcolumn, rfl⟩
  exact record_scatter hlength (inside_transposeCopies hsource) nodup_transposeCopies hmem

end

end HyperMoE.Lib
