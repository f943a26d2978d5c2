import Mathlib.Algebra.BigOperators.Group.Finset.Basic
import Mathlib.Data.List.GetD

/-!
# Row-major grids

A buffer of rank two, with its elements in row-major order.

* `Grid.get g r c`          the element at row `r` and column `c`: `values[r * columns + c]`;
* `Grid.generate`           a buffer written element by element;
* `Grid.modify`, `modifyRow`   one element, or one row, changed in place;
* `Grid.map`, `zipWith`     one buffer, or two of one shape, element by element;
* `Grid.row`, `mapRows`     whole rows;
* `rowList`                 a buffer as the list of its rows;
* `Grid.mapRowsAt`          every row through a function that is told its position.
-/

namespace HyperMoE.Lib

structure Grid (K : Type) where
  rows : Nat
  columns : Nat
  values : List K
  sized : values.length = rows * columns
  deriving DecidableEq

namespace Grid

variable {K L : Type} [Zero K]

def get (g : Grid K) (r c : Nat) : K := g.values.getD (r * g.columns + c) 0

/-- `for (r ...) for (c ...) values[r * columns + c] = f(r, c);` -/
def generate (rows columns : Nat) (f : Nat → Nat → L) : Grid L where
  rows := rows
  columns := columns
  values := (List.range (rows * columns)).map fun k => f (k / columns) (k % columns)
  sized := by rw [List.length_map, List.length_range]

def modify (g : Grid L) (r c : Nat) (f : L → L) : Grid L where
  rows := g.rows
  columns := g.columns
  values := g.values.modify (r * g.columns + c) f
  sized := by rw [List.length_modify, g.sized]

/-- `for (index ...) values[index] = f(g[index]);` -/
def map (f : K → K) (g : Grid K) : Grid K := generate g.rows g.columns fun r c => f (g.get r c)

/-- `for (index ...) values[index] = op(a[index], b[index]);`, for `a` and `b` of one shape -/
def zipWith (op : K → K → K) (a b : Grid K) : Grid K :=
  generate a.rows a.columns fun r c => op (a.get r c) (b.get r c)

/-- `for (c ...) values[r * columns + c] = f(c, values[r * columns + c]);` -/
def modifyRow (g : Grid L) (r : Nat) (f : Nat → L → L) : Grid L :=
  (List.range g.columns).foldl (fun g c => g.modify r c (f c)) g

/-- row `r` of a buffer with this many columns -/
def rowAt (columns : Nat) (values : List K) (r : Nat) : List K :=
  (List.range columns).map fun c => values.getD (r * columns + c) 0

def row (g : Grid K) (r : Nat) : List K := rowAt g.columns g.values r

def rowList (g : Grid K) : List (List K) := (List.range g.rows).map g.row

/-- every row through `f`, whose answer has `width` elements -/
def mapRows (g : Grid K) (width : Nat) (f : List K → List K) : Grid K :=
  generate g.rows width fun r c => (f (g.row r)).getD c 0

/-- every row through `f`, which is told the position of the row -/
def mapRowsAt (g : Grid K) (first width : Nat) (f : Nat → List K → List K) : Grid K :=
  generate g.rows width fun r c => (f (first + r) (g.row r)).getD c 0

variable {g g' a b : Grid K} {r c : Nat}

/-! ## addresses -/

theorem address_div (r : Nat) {c n : Nat} (hc : c < n) : (r * n + c) / n = r := by
  rw [Nat.add_comm, Nat.add_mul_div_right _ _ (Nat.zero_lt_of_lt hc), Nat.div_eq_of_lt hc,
    Nat.zero_add]

theorem address_mod (r : Nat) {c n : Nat} (hc : c < n) : (r * n + c) % n = c := by
  rw [Nat.add_comm, Nat.add_mul_mod_self_right, Nat.mod_eq_of_lt hc]

theorem address_lt {r c m n : Nat} (hr : r < m) (hc : c < n) : r * n + c < m * n := by
  calc r * n + c < r * n + n := Nat.add_lt_add_left hc _
    _ = (r + 1) * n := (Nat.succ_mul r n).symm
    _ ≤ m * n := Nat.mul_le_mul_right n hr

theorem address_inj {r r' c c' n : Nat} (hc : c < n) (hc' : c' < n) :
    r * n + c = r' * n + c' ↔ r = r' ∧ c = c' := by
  constructor
  · intro h
    refine ⟨?_, ?_⟩
    · rw [← address_div r hc, h, address_div r' hc']
    · rw [← address_mod r hc, h, address_mod r' hc']
  · rintro ⟨rfl, rfl⟩
    rfl

/-! ## elements -/

@[simp] theorem generate_rows (m n : Nat) (f : Nat → Nat → L) : (generate m n f).rows = m := rfl

@[simp] theorem generate_columns (m n : Nat) (f : Nat → Nat → L) :
    (generate m n f).columns = n := rfl

theorem get_generate {m n : Nat} (f : Nat → Nat → K) (hr : r < m) (hc : c < n) :
    (generate m n f).get r c = f r c := by
  have hlt : r * n + c < ((List.range (m * n)).map fun k => f (k / n) (k % n)).length := by
    rw [List.length_map, List.length_range]
    exact address_lt hr hc
  show ((List.range (m * n)).map fun k => f (k / n) (k % n)).getD (r * n + c) 0 = f r c
  rw [List.getD_eq_getElem _ _ hlt, List.getElem_map, List.getElem_range, address_div r hc,
    address_mod r hc]

/-- every position of the buffer is the address of an element -/
theorem ext_get (hrows : g.rows = g'.rows) (hcolumns : g.columns = g'.columns)
    (h : ∀ r < g.rows, ∀ c < g.columns, g.get r c = g'.get r c) : g = g' := by
  obtain ⟨m, n, values, sized⟩ := g
  obtain ⟨m', n', values', sized'⟩ := g'
  obtain rfl : m = m' := hrows
  obtain rfl : n = n' := hcolumns
  have hvalues : values = values' := by
    apply List.ext_getElem (by rw [sized, sized'])
    intro k hk hk'
    have hn : 0 < n := by
      rcases Nat.eq_zero_or_pos n with h0 | h0
      · rw [sized, h0, Nat.mul_zero] at hk
        omega
      · exact h0
    have hdiv : k / n < m := by
      rw [Nat.div_lt_iff_lt_mul hn, ← sized]
      exact hk
    have hget := h (k / n) hdiv (k % n) (Nat.mod_lt k hn)
    have haddress : k / n * n + k % n = k := Nat.div_add_mod' k n
    simp only [get, haddress] at hget
    rw [List.getD_eq_getElem _ _ hk, List.getD_eq_getElem _ _ hk'] at hget
    exact hget
  subst hvalues
  rfl

@[simp] theorem modify_rows (g : Grid L) (r c : Nat) (f : L → L) :
    (g.modify r c f).rows = g.rows := rfl

@[simp] theorem modify_columns (g : Grid L) (r c : Nat) (f : L → L) :
    (g.modify r c f).columns = g.columns := rfl

theorem get_modify (f : K → K) {r' c' : Nat} (hr : r < g.rows) (hc : c < g.columns)
    (hc' : c' < g.columns) :
    (g.modify r c f).get r' c' = if r' = r ∧ c' = c then f (g.get r' c') else g.get r' c' := by
  have hlt : r * g.columns + c < g.values.length := by
    rw [g.sized]
    exact address_lt hr hc
  show (g.values.modify (r * g.columns + c) f).getD (r' * g.columns + c') 0 = _
  rw [List.getD_eq_getElem?_getD, get, List.getD_eq_getElem?_getD]
  by_cases h : r' = r ∧ c' = c
  · obtain ⟨rfl, rfl⟩ := h
    rw [List.getElem?_modify_eq, if_pos ⟨rfl, rfl⟩, List.getElem?_eq_getElem hlt]
    rfl
  · have hne : r * g.columns + c ≠ r' * g.columns + c' :=
      fun h' => h (((address_inj hc hc').mp h').imp Eq.symm Eq.symm)
    rw [List.getElem?_modify_ne _ _ hne, if_neg h]

omit [Zero K] in
theorem foldl_modify_shape (g : Grid K) (f : Nat → K → K) (cs : List Nat) :
    (cs.foldl (fun g c => g.modify r c (f c)) g).rows = g.rows ∧
    (cs.foldl (fun g c => g.modify r c (f c)) g).columns = g.columns := by
  induction cs generalizing g with
  | nil => exact ⟨rfl, rfl⟩
  | cons c cs ih => exact ih (g.modify r c (f c))

/-- elements of row `r` changed one by one -/
theorem foldl_modify {f : Nat → K → K} (cs : List Nat) (hcs : cs.Nodup)
    (hlt : ∀ c ∈ cs, c < g.columns) (hr : r < g.rows) (r' : Nat) {c : Nat} (hc : c < g.columns) :
    (cs.foldl (fun g c => g.modify r c (f c)) g).get r' c =
      if r' = r ∧ c ∈ cs then f c (g.get r' c) else g.get r' c := by
  induction cs generalizing g with
  | nil =>
    rw [if_neg fun h => nomatch h.2]
    rfl
  | cons c₀ cs ih =>
    obtain ⟨hnot, hnodup⟩ := List.nodup_cons.mp hcs
    have hc₀ := hlt c₀ List.mem_cons_self
    have hget := @ih (g.modify r c₀ (f c₀)) hnodup
      (fun c hc => hlt c (List.mem_cons_of_mem _ hc)) hr hc
    rw [List.foldl_cons, hget, get_modify _ hr hc₀ hc]
    by_cases hr' : r' = r
    · by_cases heq : c = c₀
      · subst heq
        rw [if_neg fun h => hnot h.2, if_pos ⟨hr', rfl⟩, if_pos ⟨hr', List.mem_cons_self⟩]
      · have hne : ¬ (r' = r ∧ c = c₀) := fun h => heq h.2
        rw [if_neg hne]
        exact if_congr (by rw [List.mem_cons, or_iff_right heq]) rfl rfl
    · rw [if_neg fun h => hr' h.1, if_neg fun h => hr' h.1, if_neg fun h => hr' h.1]

section
variable {f : Nat → K → K}

omit [Zero K] in
@[simp] theorem rows_modifyRow : (g.modifyRow r f).rows = g.rows := (foldl_modify_shape g f _).1

omit [Zero K] in
@[simp] theorem columns_modifyRow : (g.modifyRow r f).columns = g.columns :=
  (foldl_modify_shape g f _).2

theorem get_modifyRow {r' : Nat} (hr : r < g.rows) (hc : c < g.columns) :
    (g.modifyRow r f).get r' c = if r' = r then f c (g.get r' c) else g.get r' c := by
  have h := foldl_modify (f := f) _ List.nodup_range (fun _ hc => List.mem_range.mp hc) hr r' hc
  rw [modifyRow, h]
  exact if_congr (and_iff_left (List.mem_range.mpr hc)) rfl rfl

end

@[simp] theorem length_row : (g.row r).length = g.columns := by
  rw [row, rowAt, List.length_map, List.length_range]

theorem getD_row (hc : c < g.columns) : (g.row r).getD c 0 = g.get r c := by
  have hlt : c < (g.row r).length := by rwa [length_row]
  rw [List.getD_eq_getElem _ _ hlt]
  simp only [row, rowAt, List.getElem_map, List.getElem_range]
  rfl

omit [Zero K] in
theorem getD_map_range {n : Nat} {d : K} (f : Nat → K) (hc : c < n) :
    ((List.range n).map f).getD c d = f c := by
  have hlt : c < ((List.range n).map f).length := by rwa [List.length_map, List.length_range]
  rw [List.getD_eq_getElem _ _ hlt, List.getElem_map, List.getElem_range]

/-! ## rows at their positions -/

section
variable {first width : Nat} {f : Nat → List K → List K}

@[simp] theorem mapRowsAt_rows : (g.mapRowsAt first width f).rows = g.rows := rfl

@[simp] theorem mapRowsAt_columns : (g.mapRowsAt first width f).columns = width := rfl

theorem row_mapRowsAt (hf : ∀ p row, row.length = g.columns → (f p row).length = width)
    (hr : r < g.rows) :
    (g.mapRowsAt first width f).row r = f (first + r) (g.row r) := by
  apply List.ext_getElem
  · rw [length_row, hf _ _ length_row, mapRowsAt_columns]
  · intro c hc hc'
    have hwidth : c < width := by rwa [hf _ _ length_row] at hc'
    rw [← List.getD_eq_getElem _ 0 hc, getD_row hwidth, ← List.getD_eq_getElem _ 0 hc']
    exact get_generate _ hr hwidth

theorem get_mapRowsAt (f : Nat → List K → List K) (hr : r < g.rows) (hc : c < width) :
    (g.mapRowsAt first width f).get r c = (f (first + r) (g.row r)).getD c 0 :=
  get_generate _ hr hc

/-- one pass over the rows after another -/
theorem mapRowsAt_mapRowsAt {width' : Nat} {f' : Nat → List K → List K}
    (hf : ∀ p row, row.length = g.columns → (f p row).length = width) :
    (g.mapRowsAt first width f).mapRowsAt first width' f' =
      g.mapRowsAt first width' fun p row => f' p (f p row) := by
  refine ext_get rfl rfl fun r hr c hc => ?_
  have hr' : r < g.rows := hr
  have hc' : c < width' := hc
  have hget : ((g.mapRowsAt first width f).mapRowsAt first width' f').get r c =
      (f' (first + r) ((g.mapRowsAt first width f).row r)).getD c 0 := get_mapRowsAt f' hr' hc'
  rw [hget, row_mapRowsAt hf hr', get_mapRowsAt _ hr' hc']

/-- two grids made from one, row by row -/
theorem zipWith_mapRowsAt {op : K → K → K} {f' : Nat → List K → List K}
    (hf : ∀ p row, row.length = g.columns → (f p row).length = width)
    (hf' : ∀ p row, row.length = g.columns → (f' p row).length = width) :
    zipWith op (g.mapRowsAt first width f) (g.mapRowsAt first width f') =
      g.mapRowsAt first width fun p row => List.zipWith op (f p row) (f' p row) := by
  refine ext_get rfl rfl fun r hr c hc => ?_
  have hr' : r < g.rows := hr
  have hc' : c < width := hc
  have hlt : c < (f (first + r) (g.row r)).length := by rwa [hf _ _ length_row]
  have hlt' : c < (f' (first + r) (g.row r)).length := by rwa [hf' _ _ length_row]
  have hzip : c < (List.zipWith op (f (first + r) (g.row r)) (f' (first + r) (g.row r))).length := by
    rw [List.length_zipWith]
    omega
  have hget : (zipWith op (g.mapRowsAt first width f) (g.mapRowsAt first width f')).get r c =
      op ((g.mapRowsAt first width f).get r c) ((g.mapRowsAt first width f').get r c) :=
    get_generate _ hr' hc'
  rw [hget, get_mapRowsAt _ hr' hc', get_mapRowsAt _ hr' hc', get_mapRowsAt _ hr' hc',
    List.getD_eq_getElem _ _ hzip, List.getElem_zipWith, List.getD_eq_getElem _ _ hlt,
    List.getD_eq_getElem _ _ hlt']

/-- a grid is its own rows -/
theorem mapRowsAt_id : g.mapRowsAt first g.columns (fun _ row => row) = g := by
  refine ext_get rfl rfl fun r hr c hc => ?_
  have hr' : r < g.rows := hr
  have hc' : c < g.columns := hc
  rw [get_mapRowsAt _ hr' hc', getD_row hc']

end

/-! ## rows for which the position does not matter -/

theorem mapRows_eq_mapRowsAt (first width : Nat) (f : List K → List K) :
    g.mapRows width f = g.mapRowsAt first width fun _ => f := rfl

@[simp] theorem mapRows_rows (width : Nat) (f : List K → List K) :
    (g.mapRows width f).rows = g.rows := rfl

@[simp] theorem mapRows_columns (width : Nat) (f : List K → List K) :
    (g.mapRows width f).columns = width := rfl

theorem get_mapRows {width : Nat} (f : List K → List K) (hr : r < g.rows) (hc : c < width) :
    (g.mapRows width f).get r c = (f (g.row r)).getD c 0 := get_generate _ hr hc

theorem row_mapRows {width : Nat} {f : List K → List K} (hf : ∀ row, (f row).length = width)
    (hr : r < g.rows) : (g.mapRows width f).row r = f (g.row r) := by
  rw [mapRows_eq_mapRowsAt 0]
  exact row_mapRowsAt (fun _ row _ => hf row) hr

theorem mapRows_mapRows {width width' : Nat} {f f' : List K → List K}
    (hf : ∀ row, (f row).length = width) :
    (g.mapRows width f).mapRows width' f' = g.mapRows width' fun row => f' (f row) := by
  rw [mapRows_eq_mapRowsAt 0, mapRows_eq_mapRowsAt 0 width']
  exact mapRowsAt_mapRowsAt fun _ row _ => hf row

theorem zipWith_mapRows {op : K → K → K} {width : Nat} {f f' : List K → List K}
    (hf : ∀ row, (f row).length = width) (hf' : ∀ row, (f' row).length = width) :
    zipWith op (g.mapRows width f) (g.mapRows width f') =
      g.mapRows width fun row => List.zipWith op (f row) (f' row) := by
  rw [mapRows_eq_mapRowsAt 0 width f, mapRows_eq_mapRowsAt 0 width f']
  exact zipWith_mapRowsAt (fun _ row _ => hf row) fun _ row _ => hf' row

theorem map_mapRows {width : Nat} {f : List K → List K} (op : K → K)
    (hf : ∀ row, (f row).length = width) :
    map op (g.mapRows width f) = g.mapRows width fun row => (f row).map op := by
  refine ext_get rfl rfl fun r hr c hc => ?_
  have hr' : r < g.rows := hr
  have hc' : c < width := hc
  have hlt : c < (f (g.row r)).length := by rwa [hf]
  have hlt' : c < ((f (g.row r)).map op).length := by rwa [List.length_map]
  have hget : (map op (g.mapRows width f)).get r c = op ((g.mapRows width f).get r c) :=
    get_generate _ hr' hc'
  rw [hget, get_mapRows _ hr' hc', get_mapRows _ hr' hc', List.getD_eq_getElem _ _ hlt',
    List.getElem_map, List.getD_eq_getElem _ _ hlt]

/-! ## the list of rows -/

@[simp] theorem length_rowAt (columns : Nat) (values : List K) (r : Nat) :
    (rowAt columns values r).length = columns := by
  rw [rowAt, List.length_map, List.length_range]

@[simp] theorem length_rowList : g.rowList.length = g.rows := by
  rw [rowList, List.length_map, List.length_range]

theorem getElem_rowList {i : Nat} (h : i < g.rowList.length) : g.rowList[i] = g.row i := by
  simp only [rowList, List.getElem_map, List.getElem_range]

theorem getD_rowAt {columns : Nat} {values : List K} (hc : c < columns) :
    (rowAt columns values r).getD c 0 = values.getD (r * columns + c) 0 := getD_map_range _ hc

/-- a buffer is known by its rows -/
theorem ext_row (hrows : g.rows = g'.rows) (hcolumns : g.columns = g'.columns)
    (h : ∀ r < g.rows, g.row r = g'.row r) : g = g' := by
  refine ext_get hrows hcolumns fun r hr c hc => ?_
  rw [← getD_row hc, h r hr, getD_row (hcolumns ▸ hc)]

theorem ext_rowList (hcolumns : g.columns = g'.columns) (h : g.rowList = g'.rowList) : g = g' := by
  have hrows : g.rows = g'.rows := by rw [← length_rowList, h, length_rowList]
  refine ext_row hrows hcolumns fun r hr => ?_
  have hlt : r < g.rowList.length := by rwa [length_rowList]
  rw [← getElem_rowList hlt, ← getElem_rowList (h ▸ hlt)]
  exact List.getElem_of_eq h hlt

theorem eq_of_rowAt {n columns : Nat} {values values' : List K} (hsized : values.length = n * columns)
    (hsized' : values'.length = n * columns)
    (h : ∀ r < n, rowAt columns values r = rowAt columns values' r) : values = values' := by
  have heq : (⟨n, columns, values, hsized⟩ : Grid K) = ⟨n, columns, values', hsized'⟩ :=
    ext_row rfl rfl h
  exact congrArg Grid.values heq

theorem rowAt_append_left {n columns : Nat} {values : List K} (values' : List K)
    (hsized : values.length = n * columns) (hr : r < n) :
    rowAt columns (values ++ values') r = rowAt columns values r := by
  unfold rowAt
  apply List.map_congr_left
  intro c hc
  exact List.getD_append _ _ _ _ (hsized ▸ address_lt hr (List.mem_range.mp hc))

theorem rowAt_append_right {n columns : Nat} {values : List K} (values' : List K)
    (hsized : values.length = n * columns) :
    rowAt columns (values ++ values') (n + r) = rowAt columns values' r := by
  unfold rowAt
  apply List.map_congr_left
  intro c _
  have haddress : (n + r) * columns + c = values.length + (r * columns + c) := by
    rw [hsized, Nat.add_mul, Nat.add_assoc]
  rw [haddress, List.getD_append_right _ _ _ _ (Nat.le_add_right _ _), Nat.add_sub_cancel_left]

theorem rowList_mapRowsAt {first width : Nat} {f : Nat → List K → List K}
    (hf : ∀ p row, row.length = g.columns → (f p row).length = width) :
    (g.mapRowsAt first width f).rowList = g.rowList.mapIdx fun i row => f (first + i) row := by
  apply List.ext_getElem
  · rw [length_rowList, List.length_mapIdx, length_rowList, mapRowsAt_rows]
  · intro i hi hi'
    have hlt : i < g.rows := by rwa [length_rowList] at hi
    rw [getElem_rowList hi, row_mapRowsAt hf hlt, List.getElem_mapIdx, getElem_rowList]

theorem rowList_mapRows {width : Nat} {f : List K → List K} (hf : ∀ row, (f row).length = width) :
    (g.mapRows width f).rowList = g.rowList.map f := by
  apply List.ext_getElem
  · rw [length_rowList, List.length_map, length_rowList, mapRows_rows]
  · intro i hi hi'
    have hlt : i < g.rows := by rwa [length_rowList] at hi
    rw [getElem_rowList hi, row_mapRows hf hlt, List.getElem_map, getElem_rowList]

end Grid

end HyperMoE.Lib
