import HyperMoE.Backend.CooperativeBlock
import HyperMoE.Lib.Buffers
import HyperMoE.Lib.Numerals
import HyperMoE.Tensor.Numerics

/-!
# The kernels of the layers

`CudaKernels.cu`: normalization, rotation, activation, and the rows that go to the experts and come
back.  A kernel is one thread; it fails where it leaves an array.  The threads of a launch come in
any order, and there are more of them than elements.

* `Scheduled`            the threads of a launch;
* `rmsNormKernel` ... `zeroKernel`   the kernels;
* `launch_rmsNorm` ... `launch_zero`   what a launch leaves, in any order.
-/

namespace HyperMoE.Backend

open Lib Lib.Numerals Tensor

variable {K : Type} [Field K]

/-! ## launches -/

/-- the threads of `kernel<<<blocks(elements), threadsPerBlock>>>`, as they come; a grid has at most
2 ^ 31 - 1 blocks -/
structure Scheduled (threads : List Nat) (elements : Nat) : Prop where
  perm : threads.Perm (List.range (blocks elements * threadsPerBlock))
  fits : elements ≤ (2 ^ 31 - 1) * threadsPerBlock

namespace Scheduled
variable {threads : List Nat} {elements : Nat}

theorem nodup (h : Scheduled threads elements) : threads.Nodup :=
  h.perm.nodup_iff.mpr List.nodup_range

theorem mem (h : Scheduled threads elements) {c : Nat} (hc : c < elements) : c ∈ threads := by
  refine h.perm.mem_iff.mpr (List.mem_range.mpr ?_)
  have hfits := h.fits
  unfold blocks threadsPerBlock at *
  omega

end Scheduled

/-! ## the kernels -/

def activationKernel (N : Numerics K) (type : Int) (input : List K) (elements index : Nat)
    (output : List K) : Option (List K) :=
  if index ≥ elements then some output else do
  let value ← input[index]?
  let inverseSqrtTwo := N.ofFloat ⟨0x3f3504f3⟩
  put output index (if type = 0 then value / (1 + N.exp (-value))
    else 1 / 2 * value * (1 + N.erf (value * inverseSqrtTwo)))

def rmsNormKernel (N : Numerics K) (input weight : List K) (rows width : Nat) (epsilon : Binary32)
    (row : Nat) (output : List K) : Option (List K) :=
  if row ≥ rows then some output else do
  let squareSum ← (List.range width).foldlM (fun sum column => do
    let value ← input[row * width + column]?
    return sum + value * value) 0
  let inverse := 1 / N.sqrt (squareSum / width + N.ofFloat epsilon)
  (List.range width).foldlM (fun output column => do
    let value ← input[row * width + column]?
    let scale ← weight[column]?
    put output (row * width + column) (value * inverse * scale)) output

/-- in place; `headAndToken % heads` and `headAndToken / heads` are the head and the token -/
def ropeKernel (N : Numerics K) (tokens heads headDimension positionOffset : Nat) (theta : Binary32)
    (pair : Nat) (values : List K) : Option (List K) :=
  let pairsPerHead := headDimension / 2
  if pair ≥ tokens * heads * pairsPerHead then some values else do
  let dimensionPair := pair % pairsPerHead
  let headAndToken := pair / pairsPerHead
  let head := headAndToken % heads
  let token := headAndToken / heads
  let dimension := dimensionPair * 2
  let exponent := (dimension : K) / headDimension
  let angle := ((positionOffset + token : Nat) : K) / N.pow (N.ofFloat theta) exponent
  let base := (token * heads + head) * headDimension + dimension
  let first ← values[base]?
  let second ← values[base + 1]?
  let values ← put values base (first * N.cos angle - second * N.sin angle)
  put values (base + 1) (first * N.sin angle + second * N.cos angle)

def gatherRowsKernel (input : List K) (rows : List Nat) (rowCount width index : Nat)
    (output : List K) : Option (List K) :=
  if index ≥ rowCount * width then some output else do
  let row := index / width
  let column := index % width
  let source ← rows[row]?
  let value ← input[source * width + column]?
  put output index value

def scatterAddRowsKernel (input : List K) (rows : List Nat) (weights : List K)
    (rowCount width index : Nat) (output : List K) : Option (List K) :=
  if index ≥ rowCount * width then some output else do
  let row := index / width
  let column := index % width
  let target ← rows[row]?
  let value ← input[index]?
  let weight ← weights[row]?
  addAt output (target * width + column) (value * weight)

def zeroKernel (elements index : Nat) (output : List K) : Option (List K) :=
  if index < elements then put output index 0 else some output

/-! ## a thread for each element -/

section
variable {threads : List Nat} {elements : Nat} {output : List K}

omit [Field K] in
theorem launch_elements (value : Nat → K) {kernel : Nat → List K → Option (List K)}
    (hset : ∀ index < elements, ∀ output, kernel index output = put output index (value index))
    (hidle : ∀ index, elements ≤ index → ∀ output, kernel index output = some output)
    (h : Scheduled threads elements) (hlength : output.length = elements) :
    launch kernel threads output = some ((List.range elements).map value) := by
  refine launch_owned (fun c => c) value (fun t _ output' hlength' _ => ?_) h.nodup
    (fun c hc => h.mem hc) hlength
  by_cases ht : t < elements
  · have hlt : t < output'.length := hlength'.symm ▸ ht
    refine ⟨output'.set t (value t), (hset t ht output').trans (put_eq hlt _), ?_, fun c hc => ?_⟩
    · rw [List.length_set, hlength']
    · by_cases hct : c = t
      · subst hct
        rw [if_pos rfl, List.getElem?_set_self hlt]
      · rw [if_neg hct, List.getElem?_set_ne (Ne.symm hct)]
  · refine ⟨output', hidle t (Nat.le_of_not_lt ht) output', hlength', fun c hc => ?_⟩
    rw [if_neg fun hct : c = t => ht (hct ▸ hc)]

theorem launch_activation (N : Numerics K) (type : Int) {input : List K}
    (h : Scheduled threads input.length) (hlength : output.length = input.length) :
    launch (activationKernel N type input input.length) threads output =
      some (input.map fun value => if type = 0 then value / (1 + N.exp (-value))
        else 1 / 2 * value * (1 + N.erf (value * N.ofFloat ⟨0x3f3504f3⟩))) := by
  refine (launch_elements (fun index => (fun value => if type = 0
      then value / (1 + N.exp (-value))
      else 1 / 2 * value * (1 + N.erf (value * N.ofFloat ⟨0x3f3504f3⟩))) (input.getD index 0))
    (fun index hindex output => ?_) (fun index hindex output => if_pos hindex) h hlength).trans
    (congrArg some (List.ext_getElem ?_ fun c hc hc' => ?_))
  · rw [if_neg (Nat.not_le.mpr hindex), List.getElem?_eq_getElem hindex,
      List.getD_eq_getElem _ _ hindex]
    rfl
  · rw [List.length_map, List.length_map, List.length_range]
  · rw [List.length_map] at hc'
    rw [List.getElem_map, List.getElem_map, List.getElem_range, List.getD_eq_getElem _ _ hc']

theorem launch_zero (h : Scheduled threads elements) (hlength : output.length = elements) :
    launch (zeroKernel elements) threads output = some ((List.range elements).map fun _ => (0 : K)) :=
  launch_elements (fun _ => 0) (fun _ hindex _ => if_pos hindex)
    (fun _ hindex _ => if_neg (Nat.not_lt.mpr hindex)) h hlength

end

/-! ## rows -/

section
variable {threads : List Nat} {output : List K} {g : Grid K}

/-- the rows, copied one after another -/
theorem launch_gatherRows {rows : List Nat} (hrows : ∀ row ∈ rows, row < g.rows)
    (h : Scheduled threads (rows.length * g.columns))
    (hlength : output.length = rows.length * g.columns) :
    launch (gatherRowsKernel g.values rows rows.length g.columns) threads output =
      some (Grid.generate rows.length g.columns fun row column =>
        g.get (rows.getD row 0) column).values := by
  refine launch_elements (fun index => g.get (rows.getD (index / g.columns) 0) (index % g.columns))
    (fun index hindex output => ?_) (fun index hindex output => if_pos hindex) h hlength
  have hcolumns : 0 < g.columns := Nat.pos_of_mul_pos_left (Nat.zero_lt_of_lt hindex)
  have hrow : index / g.columns < rows.length := (Nat.div_lt_iff_lt_mul hcolumns).mpr hindex
  unfold gatherRowsKernel
  rw [if_neg (Nat.not_le.mpr hindex)]
  dsimp only
  rw [List.getElem?_eq_getElem hrow, List.getD_eq_getElem _ _ hrow]
  show (g.values[rows[index / g.columns] * g.columns + index % g.columns]?).bind _ = _
  rw [getElem?_values (hrows _ (List.getElem_mem hrow)) (Nat.mod_lt index hcolumns)]
  rfl

/-- every thread adds one element, to an element that other rows may add to as well -/
theorem launch_scatterAddRows {rows : List Nat} {weights : List K} {n : Nat}
    (hcount : rows.length = g.rows) (hweights : weights.length = g.rows)
    (hrows : ∀ row ∈ rows, row < n) (h : Scheduled threads (g.rows * g.columns))
    (hlength : output.length = n * g.columns) :
    ∃ output', launch (scatterAddRowsKernel g.values rows weights g.rows g.columns) threads output =
        some output' ∧ output'.length = n * g.columns ∧ ∀ c,
      output'.getD c 0 = output.getD c 0 + ∑ t ∈ Finset.range (g.rows * g.columns),
        if rows.getD (t / g.columns) 0 * g.columns + t % g.columns = c
        then g.values.getD t 0 * weights.getD (t / g.columns) 0 else 0 := by
  have hrow : ∀ t < g.rows * g.columns, 0 < g.columns ∧ t / g.columns < g.rows := fun t ht => by
    have hcolumns : 0 < g.columns := Nat.pos_of_mul_pos_left (Nat.zero_lt_of_lt ht)
    exact ⟨hcolumns, (Nat.div_lt_iff_lt_mul hcolumns).mpr ht⟩
  refine launch_adds (fun t => rows.getD (t / g.columns) 0 * g.columns + t % g.columns)
    (fun t => g.values.getD t 0 * weights.getD (t / g.columns) 0) (fun t ht output => ?_)
    (fun t ht output => if_pos ht) (fun t ht => ?_) h.nodup (fun t ht => h.mem ht) hlength
  · obtain ⟨hcolumns, hlt⟩ := hrow t ht
    have hvalue : t < g.values.length := g.sized.symm ▸ ht
    unfold scatterAddRowsKernel
    rw [if_neg (Nat.not_le.mpr ht)]
    dsimp only
    rw [List.getElem?_eq_getElem (hcount.symm ▸ hlt), List.getElem?_eq_getElem hvalue,
      List.getElem?_eq_getElem (hweights.symm ▸ hlt), List.getD_eq_getElem _ _ (hcount.symm ▸ hlt),
      List.getD_eq_getElem _ _ hvalue, List.getD_eq_getElem _ _ (hweights.symm ▸ hlt)]
    rfl
  · obtain ⟨hcolumns, hlt⟩ := hrow t ht
    rw [List.getD_eq_getElem _ _ (hcount.symm ▸ hlt)]
    exact Grid.address_lt (hrows _ (List.getElem_mem (hcount.symm ▸ hlt))) (Nat.mod_lt t hcolumns)

/-- a thread for each row, which it sets -/
theorem launch_rmsNorm (N : Numerics K) {weight : List K} (epsilon : Binary32)
    (hweight : weight.length = g.columns) (h : Scheduled threads g.rows)
    (hlength : output.length = g.rows * g.columns) :
    launch (rmsNormKernel N g.values weight g.rows g.columns epsilon) threads output =
      some (Grid.generate g.rows g.columns fun row column => g.get row column *
        (1 / N.sqrt ((∑ c ∈ Finset.range g.columns, g.get row c * g.get row c) / g.columns +
          N.ofFloat epsilon)) * weight.getD column 0).values := by
  refine launch_owned (fun c => c / g.columns) _ (fun row _ output' hlength' _ => ?_) h.nodup
    (fun c hc => h.mem ?_) hlength
  · rcases Nat.lt_or_ge row g.rows with hrow | hrow
    · have hread : ∀ column ∈ List.range g.columns, ∀ sum : K, (do
          let value ← g.values[row * g.columns + column]?
          return sum + value * value : Option K) =
            some (sum + g.get row column * g.get row column) := by
        intro column hcolumn sum
        rw [getElem?_values hrow (List.mem_range.mp hcolumn)]
        rfl
      have hsum := foldlM_sum hread 0
      rw [zero_add] at hsum
      have hbound : row * g.columns + g.columns ≤ output'.length := by
        rw [hlength', ← Nat.succ_mul]
        exact Nat.mul_le_mul_right _ hrow
      obtain ⟨output'', hloop, hlength'', hget⟩ := foldlM_fill (fun output column => do
          let value ← g.values[row * g.columns + column]?
          let scale ← weight[column]?
          put output (row * g.columns + column) (value * (1 / N.sqrt
            (((List.range g.columns).map fun column => g.get row column * g.get row column).sum /
              g.columns + N.ofFloat epsilon)) * scale))
        (fun column => g.get row column * (1 / N.sqrt
          (((List.range g.columns).map fun column => g.get row column * g.get row column).sum /
            g.columns + N.ofFloat epsilon)) * weight.getD column 0) hbound
        (fun column hcolumn output _ _ => by
          have hscale : column < weight.length := hweight.symm ▸ hcolumn
          rw [getElem?_values hrow hcolumn, List.getElem?_eq_getElem hscale,
            List.getD_eq_getElem _ _ hscale]
          rfl)
      refine ⟨output'', ?_, hlength''.trans hlength', fun c hc => ?_⟩
      · unfold rmsNormKernel
        rw [if_neg (Nat.not_le.mpr hrow), hsum]
        exact hloop
      · have hcolumns : 0 < g.columns := Nat.pos_of_mul_pos_left (Nat.zero_lt_of_lt hc)
        have hdiv := Nat.div_add_mod' c g.columns
        have hmod := Nat.mod_lt c hcolumns
        rw [hget]
        by_cases howner : c / g.columns = row
        · rw [howner] at hdiv
          rw [if_pos ⟨by omega, by omega⟩, if_pos howner, howner,
            show c - row * g.columns = c % g.columns by omega]
          rfl
        · rw [if_neg howner, if_neg]
          rintro ⟨hle, hlt⟩
          refine howner (Nat.div_eq_of_lt_le hle ?_)
          rw [Nat.succ_mul]
          exact hlt
    · refine ⟨output', if_pos hrow, hlength', fun c hc => ?_⟩
      have hcolumns : 0 < g.columns := Nat.pos_of_mul_pos_left (Nat.zero_lt_of_lt hc)
      rw [if_neg fun howner : c / g.columns = row => absurd
        ((Nat.div_lt_iff_lt_mul hcolumns).mpr hc) (howner ▸ Nat.not_lt.mpr hrow)]
  · have hcolumns : 0 < g.columns := Nat.pos_of_mul_pos_left (Nat.zero_lt_of_lt hc)
    exact (Nat.div_lt_iff_lt_mul hcolumns).mpr hc

/-! ## pairs, in place -/

/-- the element `c` after the rotation: it has the pair `c / 2` -/
def ropeValue (N : Numerics K) (theta : Binary32) (heads headDimension positionOffset : Nat)
    (values : List K) (c : Nat) : K :=
  let dimension := c / 2 % (headDimension / 2) * 2
  let token := c / 2 / (headDimension / 2) / heads
  let exponent := (dimension : K) / headDimension
  let angle := ((positionOffset + token : Nat) : K) / N.pow (N.ofFloat theta) exponent
  let first := values.getD (c / 2 * 2) 0
  let second := values.getD (c / 2 * 2 + 1) 0
  if c % 2 = 0 then first * N.cos angle - second * N.sin angle
  else first * N.sin angle + second * N.cos angle

/-- a thread has two elements side by side, and reads no others -/
theorem launch_rope (N : Numerics K) (theta : Binary32) {tokens heads headDimension : Nat}
    (positionOffset : Nat) {values : List K} (heven : headDimension % 2 = 0)
    (h : Scheduled threads (tokens * heads * (headDimension / 2)))
    (hlength : values.length = tokens * heads * headDimension) :
    launch (ropeKernel N tokens heads headDimension positionOffset theta) threads values =
      some ((List.range (tokens * heads * headDimension)).map
        (ropeValue N theta heads headDimension positionOffset values)) := by
  have hdimension : headDimension = headDimension / 2 * 2 := by omega
  have hcount : tokens * heads * headDimension = tokens * heads * (headDimension / 2) * 2 := by
    rw [Nat.mul_assoc _ (headDimension / 2), ← hdimension]
  refine launch_owned (fun c => c / 2) _ (fun pair _ values' hlength' hown => ?_) h.nodup
    (fun c hc => h.mem (by omega)) hlength
  rcases Nat.lt_or_ge pair (tokens * heads * (headDimension / 2)) with hpair | hpair
  · -- the address of the pair, as the kernel computes it
    have hbase : (pair / (headDimension / 2) / heads * heads + pair / (headDimension / 2) % heads) *
        headDimension + pair % (headDimension / 2) * 2 = pair * 2 := by
      have hdiv := Nat.div_add_mod' pair (headDimension / 2)
      rw [Nat.div_add_mod']
      calc pair / (headDimension / 2) * headDimension + pair % (headDimension / 2) * 2
          = (pair / (headDimension / 2) * (headDimension / 2) + pair % (headDimension / 2)) * 2 := by
            rw [Nat.add_mul, Nat.mul_assoc _ (headDimension / 2), ← hdimension]
        _ = pair * 2 := by rw [hdiv]
    have hlt : pair * 2 + 1 < values.length := by omega
    have hlt' : pair * 2 + 1 < values'.length := by omega
    have hfirst : values'[pair * 2]? = some (values.getD (pair * 2) 0) := by
      rw [hown (pair * 2) (by omega) (by omega), List.getD_eq_getElem _ _ (by omega),
        List.getElem?_eq_getElem (by omega)]
    have hsecond : values'[pair * 2 + 1]? = some (values.getD (pair * 2 + 1) 0) := by
      rw [hown (pair * 2 + 1) (by omega) (by omega), List.getD_eq_getElem _ _ hlt,
        List.getElem?_eq_getElem hlt]
    have heven' := ropeValue.eq_1 N theta heads headDimension positionOffset values (pair * 2)
    have hodd := ropeValue.eq_1 N theta heads headDimension positionOffset values (pair * 2 + 1)
    rw [show (pair * 2) / 2 = pair by omega] at heven'
    rw [show (pair * 2 + 1) / 2 = pair by omega] at hodd
    rw [if_pos (by omega)] at heven'
    rw [if_neg (by omega)] at hodd
    refine ⟨(values'.set (pair * 2)
        (ropeValue N theta heads headDimension positionOffset values (pair * 2))).set (pair * 2 + 1)
        (ropeValue N theta heads headDimension positionOffset values (pair * 2 + 1)), ?_, ?_,
        fun c hc => ?_⟩
    · unfold ropeKernel
      dsimp only
      rw [if_neg (Nat.not_le.mpr hpair), hbase, hfirst, hsecond]
      show (put values' (pair * 2) _).bind _ = _
      rw [put_eq (by omega), heven', hodd]
      exact put_eq (by rw [List.length_set]; exact hlt') _
    · rw [List.length_set, List.length_set, hlength']
    · by_cases howner : c / 2 = pair
      · rw [if_pos howner]
        rcases Nat.mod_two_eq_zero_or_one c with hc' | hc'
        · obtain rfl : c = pair * 2 := by omega
          rw [List.getElem?_set_ne (by omega), List.getElem?_set_self (by omega)]
        · obtain rfl : c = pair * 2 + 1 := by omega
          rw [List.getElem?_set_self (by rw [List.length_set]; exact hlt')]
      · rw [if_neg howner, List.getElem?_set_ne (by omega), List.getElem?_set_ne (by omega)]
  · refine ⟨values', if_pos hpair, hlength', fun c hc => ?_⟩
    rw [if_neg fun howner : c / 2 = pair => by omega]

end

end HyperMoE.Backend
