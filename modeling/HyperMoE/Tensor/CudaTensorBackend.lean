import HyperMoE.Backend.CudaKernels
import HyperMoE.Tensor.CpuTensorBackend

/-!
# The kernels on the device

`CudaTensorBackend.cpp`, with the kernels of this repository: what the host checks before a launch,
the launch, and the tensor that it leaves.  A tensor that was just allocated has some contents.  The
calls of cuBLAS are parameters, with what their documentation says of them; they take matrices by
columns, so that the code passes it the operands of a product the other way round.

* `Cublas`, `Cublas.Documented`   the four calls;
* `Cublas.elementwise`     calls that do what the documentation says;
* `Order`                  the order of the threads of a launch;
* `matmul` ... `zero`      the operations;
* `matmul_of_host` ... `scatterAddRows_eq`   each does what the host would have done.
-/

namespace HyperMoE.Tensor

open Lib Lib.Outcome Backend

/-- what a call leaves in its last array -/
structure Cublas (K : Type) where
  /-- `cublasSgemm(handle, CUBLAS_OP_N, CUBLAS_OP_N, m, n, k, &alpha, A, lda, B, ldb, &beta, C, ldc)` -/
  sgemm : Nat → Nat → Nat → K → List K → Nat → List K → Nat → K → List K → Nat → List K
  /-- `cublasScopy(handle, n, x, 1, y, 1)` -/
  scopy : Nat → List K → List K → List K
  /-- `cublasSaxpy(handle, n, &alpha, x, 1, y, 1)` -/
  saxpy : Nat → K → List K → List K → List K
  /-- `cublasSdgmm(handle, CUBLAS_SIDE_RIGHT, m, n, A, lda, x, 1, C, ldc)` -/
  sdgmm : Nat → Nat → List K → Nat → List K → List K → Nat → List K

section
variable {K : Type} [Field K]

/-- element `i`, `j` of a matrix by columns -/
def byColumns (array : List K) (ld i j : Nat) : K := array.getD (i + j * ld) 0

structure Cublas.Documented (cublas : Cublas K) : Prop where
  sgemm_length : ∀ m n k alpha A lda B ldb beta C ldc,
    (cublas.sgemm m n k alpha A lda B ldb beta C ldc).length = C.length
  sgemm : ∀ m n k alpha A lda B ldb beta C ldc, m ≤ lda → k ≤ ldb → m ≤ ldc →
    A.length = lda * k → B.length = ldb * n → C.length = ldc * n → ∀ i < m, ∀ j < n,
      byColumns (cublas.sgemm m n k alpha A lda B ldb beta C ldc) ldc i j =
        alpha * ∑ l ∈ Finset.range k, byColumns A lda i l * byColumns B ldb l j +
          beta * byColumns C ldc i j
  scopy_length : ∀ n x y, (cublas.scopy n x y).length = y.length
  scopy : ∀ n x y, n ≤ x.length → n ≤ y.length → ∀ i < n,
    (cublas.scopy n x y).getD i 0 = x.getD i 0
  saxpy_length : ∀ n alpha x y, (cublas.saxpy n alpha x y).length = y.length
  saxpy : ∀ n alpha x y, n ≤ x.length → n ≤ y.length → ∀ i < n,
    (cublas.saxpy n alpha x y).getD i 0 = alpha * x.getD i 0 + y.getD i 0
  sdgmm_length : ∀ m n A lda x C ldc, (cublas.sdgmm m n A lda x C ldc).length = C.length
  sdgmm : ∀ m n A lda x C ldc, m ≤ lda → m ≤ ldc → A.length = lda * n → x.length = n →
    C.length = ldc * n → ∀ i < m, ∀ j < n,
      byColumns (cublas.sdgmm m n A lda x C ldc) ldc i j = byColumns A lda i j * x.getD j 0

/-- the calls, element by element; what lies between the columns stays as it is -/
def Cublas.elementwise : Cublas K where
  sgemm m _ k alpha A lda B ldb beta C ldc := (List.range C.length).map fun a =>
    if a % ldc < m then
      alpha * ∑ l ∈ Finset.range k, byColumns A lda (a % ldc) l * byColumns B ldb l (a / ldc) +
        beta * C.getD a 0
    else C.getD a 0
  scopy n x y := (List.range y.length).map fun a => if a < n then x.getD a 0 else y.getD a 0
  saxpy n alpha x y := (List.range y.length).map fun a =>
    if a < n then alpha * x.getD a 0 + y.getD a 0 else y.getD a 0
  sdgmm m _ A lda x C ldc := (List.range C.length).map fun a =>
    if a % ldc < m then byColumns A lda (a % ldc) (a / ldc) * x.getD (a / ldc) 0 else C.getD a 0

theorem byColumns_map (f : Nat → K) {m n ld i j : Nat} (hm : m ≤ ld) (hi : i < m) (hj : j < n) :
    byColumns ((List.range (ld * n)).map f) ld i j = f (j * ld + i) := by
  have hlt : j * ld + i < ld * n := by
    rw [Nat.mul_comm ld]
    exact Grid.address_lt hj (Nat.lt_of_lt_of_le hi hm)
  rw [byColumns, Nat.add_comm, Grid.getD_map_range _ hlt]

theorem Cublas.documented_elementwise : (elementwise : Cublas K).Documented where
  sgemm_length _ _ _ _ _ _ _ _ _ _ _ := by rw [elementwise, List.length_map, List.length_range]
  sgemm m n k alpha A lda B ldb beta C ldc _ _ hm _ _ hC i hi j hj := by
    have hld := Nat.lt_of_lt_of_le hi hm
    show byColumns ((List.range C.length).map _) ldc i j = _
    rw [hC, byColumns_map _ hm hi hj, Grid.address_mod _ hld, Grid.address_div _ hld, if_pos hi,
      byColumns, Nat.add_comm i]
  scopy_length _ _ _ := by rw [elementwise, List.length_map, List.length_range]
  scopy n x y _ hy i hi := by
    show ((List.range y.length).map _).getD i 0 = _
    rw [Grid.getD_map_range _ (Nat.lt_of_lt_of_le hi hy), if_pos hi]
  saxpy_length _ _ _ _ := by rw [elementwise, List.length_map, List.length_range]
  saxpy n alpha x y _ hy i hi := by
    show ((List.range y.length).map _).getD i 0 = _
    rw [Grid.getD_map_range _ (Nat.lt_of_lt_of_le hi hy), if_pos hi]
  sdgmm_length _ _ _ _ _ _ _ := by rw [elementwise, List.length_map, List.length_range]
  sdgmm m n A lda x C ldc _ hm _ _ hC i hi j hj := by
    have hld := Nat.lt_of_lt_of_le hi hm
    show byColumns ((List.range C.length).map _) ldc i j = _
    rw [hC, byColumns_map _ hm hi hj, Grid.address_mod _ hld, Grid.address_div _ hld, if_pos hi]

end

namespace CudaTensorBackend

/-- the threads of a launch, by the number of its elements -/
structure Order where
  threads : Nat → List Nat
  perm : ∀ elements, (threads elements).Perm (List.range (blocks elements * threadsPerBlock))

instance : Inhabited Order := ⟨⟨_, fun _ => .refl _⟩⟩

theorem Order.scheduled (order : Order) {elements : Nat} (h : elements < 2 ^ 31) :
    Scheduled (order.threads elements) elements :=
  ⟨order.perm elements, by unfold threadsPerBlock; omega⟩

variable {K : Type}

/-- a tensor that was just allocated -/
def allocateTensor (memory : Nat → K) (rows columns : Nat) : Grid K :=
  Grid.generate rows columns fun row column => memory (row * columns + column)

/-- the output of an operation; a launch that left its arrays has none -/
def written (what : String) (rows columns : Nat) : Option (List K) → Except StdError (Grid K)
  | some values =>
    if h : values.length = rows * columns then .ok ⟨rows, columns, values, h⟩
    else .error (.runtime_error what)
  | none => .error (.runtime_error what)

theorem written_eq (what : String) (g : Grid K) : written what g.rows g.columns (some g.values) = .ok g :=
  dif_pos g.sized

/-- `INT_MAX` -/
def intMax : Nat := 2 ^ 31 - 1

variable [Field K]

def matmul (cublas : Cublas K) (left right output : Grid K) : Except StdError (Grid K) := do
  throwIf (right.rows ≠ left.columns ∨ output.rows ≠ left.rows ∨ output.columns ≠ right.columns)
    (.invalid_argument "CUDA matmul dimensions are incompatible")
  throwIf (left.rows > intMax ∨ left.columns > intMax ∨ right.columns > intMax)
    (.overflow_error "CUDA matmul dimensions exceed cuBLAS integer limits")
  written "cublasSgemm" output.rows output.columns (some (cublas.sgemm right.columns left.rows
    left.columns 1 right.values right.columns left.values left.columns 0 output.values right.columns))

def validateCudaElementwise (left right output : Grid K) (operation : String) :
    Except StdError Unit :=
  throwIf (left.rows ≠ right.rows ∨ left.columns ≠ right.columns ∨ left.rows ≠ output.rows ∨
      left.columns ≠ output.columns)
    (.invalid_argument (operation ++ " requires equal contiguous CUDA FP32 tensors"))

def add (cublas : Cublas K) (left right output : Grid K) : Except StdError (Grid K) := do
  validateCudaElementwise left right output "CUDA add"
  let count := left.rows * left.columns
  throwIf (count > intMax) (.overflow_error "CUDA add exceeds cuBLAS integer limits")
  written "cublasSaxpy(add)" output.rows output.columns
    (some (cublas.saxpy count 1 right.values (cublas.scopy count left.values output.values)))

def mul (cublas : Cublas K) (left right output : Grid K) : Except StdError (Grid K) := do
  validateCudaElementwise left right output "CUDA multiply"
  let count := left.rows * left.columns
  throwIf (count > intMax) (.overflow_error "CUDA multiply exceeds cuBLAS integer limits")
  written "cublasSdgmm(multiply)" output.rows output.columns
    (some (cublas.sdgmm 1 count left.values 1 right.values output.values 1))

def rmsNorm (N : Numerics K) (order : Order) (input : Grid K) (weight : List K) (output : Grid K)
    (epsilon : Binary32) : Except StdError (Grid K) := do
  throwIf (output.rows ≠ input.rows ∨ output.columns ≠ input.columns ∨
      weight.length ≠ input.columns ∨ epsilon.isFinite = false ∨ epsilon.notPositive = true)
    (.invalid_argument "CUDA RMSNorm tensor metadata is incompatible")
  throwIf (input.columns > intMax)
    (.overflow_error "CUDA RMSNorm width exceeds cuBLAS integer limits")
  written "CUDA RMSNorm kernel" output.rows output.columns (launch
    (rmsNormKernel N input.values weight input.rows input.columns epsilon)
    (order.threads input.rows) output.values)

def applyActivation (N : Numerics K) (order : Order) (type : Int) (input output : Grid K) :
    Except StdError (Grid K) := do
  validateCudaElementwise input input output "CUDA activation"
  throwIf (type < 0 ∨ type > 1) (.invalid_argument "CUDA activation type is invalid")
  let elements := input.rows * input.columns
  written "CUDA activation kernel" output.rows output.columns (launch
    (activationKernel N type input.values elements) (order.threads elements) output.values)

def checkedProduct (left right : Nat) (operation : String) : Except StdError Nat := do
  throwIf (left ≠ 0 ∧ right > (2 ^ 64 - 1) / left) (.overflow_error (operation ++ " size overflow"))
  return left * right

def applyRoPE (N : Numerics K) (order : Order) (values : Grid K)
    (tokenCount headCount headDimension positionOffset : Nat) (theta : Binary32) :
    Except StdError (Grid K) := do
  let rows ← checkedProduct tokenCount headCount "CUDA RoPE"
  let expectedElements ← checkedProduct rows headDimension "CUDA RoPE"
  throwIf (tokenCount = 0 ∨ headCount = 0 ∨ headDimension = 0 ∨ headDimension % 2 ≠ 0 ∨
      values.rows * values.columns ≠ expectedElements ∨ positionOffset > 2 ^ 64 - 1 - tokenCount ∨
      theta.isFinite = false ∨ theta.notPositive = true)
    (.invalid_argument "CUDA RoPE tensor metadata is invalid")
  written "CUDA RoPE kernel" values.rows values.columns (launch
    (ropeKernel N tokenCount headCount headDimension positionOffset theta)
    (order.threads (tokenCount * headCount * (headDimension / 2))) values.values)

/-- `for (const auto row : rows) { if (...) throw ...; indices.push_back(row); }` -/
def checkedIndices (what : String) (limit : Nat) (rows : List Nat) : Except StdError (List Nat) :=
  collect (fun row => do
    throwIf (row ≥ limit ∨ row > 2 ^ 32 - 1) (.out_of_range what)
    return row) rows

def gatherRows (order : Order) (input : Grid K) (rows : List Nat) (output : Grid K) :
    Except StdError (Grid K) := do
  throwIf (rows = [] ∨ output.rows ≠ rows.length ∨ output.columns ≠ input.columns)
    (.invalid_argument "CUDA gather tensor metadata is incompatible")
  let indices ← checkedIndices "CUDA gather row is invalid" input.rows rows
  written "CUDA gather kernel" output.rows output.columns (launch
    (gatherRowsKernel input.values indices rows.length input.columns)
    (order.threads (rows.length * input.columns)) output.values)

def scatterAddRows (order : Order) (input : Grid K) (rows : List Nat) (weights : List K)
    (output : Grid K) : Except StdError (Grid K) := do
  throwIf (rows = [] ∨ rows.length ≠ weights.length ∨ input.rows ≠ rows.length ∨
      input.columns ≠ output.columns)
    (.invalid_argument "CUDA scatter tensor metadata is incompatible")
  let indices ← checkedIndices "CUDA scatter row is invalid" output.rows rows
  written "CUDA scatter kernel" output.rows output.columns (launch
    (scatterAddRowsKernel input.values indices weights rows.length input.columns)
    (order.threads (rows.length * input.columns)) output.values)

def zero (order : Order) (output : Grid K) : Except StdError (Grid K) :=
  written "CUDA zero kernel" output.rows output.columns (launch
    (zeroKernel (output.rows * output.columns)) (order.threads (output.rows * output.columns))
    output.values)

/-! ## cuBLAS -/

section
variable {cublas : Cublas K} {left right output g : Grid K}

/-- an output whose elements are all there -/
theorem written_of_getD (what : String) {values : List K} {rows columns : Nat}
    (hlength : values.length = rows * columns) (f : Nat → Nat → K)
    (h : ∀ row < rows, ∀ column < columns, values.getD (row * columns + column) 0 = f row column) :
    written what rows columns (some values) = .ok (Grid.generate rows columns f) := by
  have hsized : values = (Grid.generate rows columns f).values := by
    refine eq_map_range hlength fun c hc => ?_
    have hcolumns : 0 < columns := Nat.pos_of_mul_pos_left (Nat.zero_lt_of_lt hc)
    have hget := h (c / columns) ((Nat.div_lt_iff_lt_mul hcolumns).mpr hc) (c % columns)
      (Nat.mod_lt c hcolumns)
    rw [Nat.div_add_mod', List.getD_eq_getElem _ _ (hlength.symm ▸ hc)] at hget
    rw [List.getElem?_eq_getElem (hlength.symm ▸ hc), hget]
  rw [hsized]
  exact written_eq what (Grid.generate rows columns f)

/-- by columns, the product of the operands the other way round is the product by rows -/
theorem matmul_of_host (hcublas : cublas.Documented)
    (h : Tensor.matmul left right output.rows output.columns = .ok g) (hrows : left.rows ≤ intMax)
    (hinner : left.columns ≤ intMax) (hcolumns : right.columns ≤ intMax) :
    matmul cublas left right output = .ok g := by
  obtain ⟨hshape, hg⟩ := throwIf_bind_eq_ok.mp h
  push Not at hshape
  obtain ⟨hright, hleft, houtput⟩ := hshape
  obtain rfl := pure_eq_ok.mp hg
  unfold matmul
  rw [throwIf_bind_of_not (by push Not; exact ⟨hright, hleft, houtput⟩),
    throwIf_bind_of_not (by push Not; exact ⟨hrows, hinner, hcolumns⟩), hleft, houtput]
  refine written_of_getD _ ?_ _ fun row hrow column hcolumn => ?_
  · rw [hcublas.sgemm_length, output.sized, hleft, houtput]
  · have hsgemm := hcublas.sgemm right.columns left.rows left.columns 1 right.values right.columns
      left.values left.columns 0 output.values right.columns (Nat.le_refl _) (Nat.le_refl _)
      (Nat.le_refl _) (by rw [right.sized, hright, Nat.mul_comm])
      (by rw [left.sized, Nat.mul_comm])
      (by rw [output.sized, hleft, houtput, Nat.mul_comm]) column hcolumn row hrow
    unfold byColumns at hsgemm
    rw [zero_mul, add_zero, one_mul, Nat.add_comm column] at hsgemm
    rw [hsgemm]
    refine Finset.sum_congr rfl fun index _ => ?_
    rw [mul_comm, Nat.add_comm index, Nat.add_comm column]
    rfl

omit [Field K] in
theorem validateCudaElementwise_eq {operation : String} (hshape : left.rows = right.rows ∧
    left.columns = right.columns) (houtput : output.rows = left.rows ∧
    output.columns = left.columns) :
    validateCudaElementwise left right output operation = .ok () := by
  refine if_neg ?_
  push Not
  exact ⟨hshape.1, hshape.2, houtput.1.symm, houtput.2.symm⟩

theorem add_of_host (hcublas : cublas.Documented) (h : Tensor.add left right = .ok g)
    (houtput : output.rows = left.rows ∧ output.columns = left.columns)
    (hcount : left.rows * left.columns ≤ intMax) : add cublas left right output = .ok g := by
  obtain ⟨hshape, rfl⟩ := add_eq_ok.mp h
  have hlength : left.values.length = left.rows * left.columns := left.sized
  have hlength' : right.values.length = left.rows * left.columns := by
    rw [right.sized, hshape.1, hshape.2]
  have hlength'' : output.values.length = left.rows * left.columns := by
    rw [output.sized, houtput.1, houtput.2]
  unfold add
  rw [validateCudaElementwise_eq hshape houtput]
  show (throwIf _ _ >>= _) = _
  rw [throwIf_bind_of_not (Nat.not_lt.mpr hcount), houtput.1, houtput.2]
  refine written_of_getD _ ?_ _ fun row hrow column hcolumn => ?_
  · rw [hcublas.saxpy_length, hcublas.scopy_length, hlength'']
  · have hlt := Grid.address_lt hrow hcolumn
    rw [hcublas.saxpy _ _ _ _ hlength'.ge (by rw [hcublas.scopy_length, hlength'']) _ hlt,
      hcublas.scopy _ _ _ hlength.ge hlength''.ge _ hlt, one_mul, add_comm, Grid.get, Grid.get,
      hshape.2]

theorem mul_of_host (hcublas : cublas.Documented) (h : Tensor.mul left right = .ok g)
    (houtput : output.rows = left.rows ∧ output.columns = left.columns)
    (hcount : left.rows * left.columns ≤ intMax) : mul cublas left right output = .ok g := by
  obtain ⟨hshape, rfl⟩ := elementwise_eq_ok.mp h
  have hlength : left.values.length = left.rows * left.columns := left.sized
  have hlength' : right.values.length = left.rows * left.columns := by
    rw [right.sized, hshape.1, hshape.2]
  have hlength'' : output.values.length = left.rows * left.columns := by
    rw [output.sized, houtput.1, houtput.2]
  unfold mul
  rw [validateCudaElementwise_eq hshape houtput]
  show (throwIf _ _ >>= _) = _
  rw [throwIf_bind_of_not (Nat.not_lt.mpr hcount), houtput.1, houtput.2]
  refine written_of_getD _ ?_ _ fun row hrow column hcolumn => ?_
  · rw [hcublas.sdgmm_length, hlength'']
  · have hlt := Grid.address_lt hrow hcolumn
    have hsdgmm := hcublas.sdgmm 1 (left.rows * left.columns) left.values 1 right.values
      output.values 1 (Nat.le_refl 1) (Nat.le_refl 1) (by rw [hlength, Nat.one_mul]) hlength'
      (by rw [hlength'', Nat.one_mul]) 0 Nat.one_pos _ hlt
    unfold byColumns at hsdgmm
    rw [Nat.mul_one, Nat.zero_add] at hsdgmm
    rw [hsdgmm, Grid.get, Grid.get, hshape.2]

end

/-! ## launches -/

section
variable {N : Numerics K} {order : Order} {input output : Grid K}

theorem rmsNorm_eq {weight : List K} {epsilon : Binary32} (houtput : output.rows = input.rows ∧
    output.columns = input.columns) (hweight : weight.length = input.columns)
    (hfinite : epsilon.isFinite = true) (hpositive : epsilon.notPositive = false)
    (hwidth : input.columns ≤ intMax) (hrows : input.rows < 2 ^ 31) :
    rmsNorm N order input weight output epsilon = .ok (Grid.generate input.rows input.columns
      fun row column => input.get row column * (1 / N.sqrt ((∑ c ∈ Finset.range input.columns,
        input.get row c * input.get row c) / input.columns + N.ofFloat epsilon)) *
          weight.getD column 0) := by
  unfold rmsNorm
  rw [throwIf_bind_of_not, throwIf_bind_of_not (Nat.not_lt.mpr hwidth), houtput.1, houtput.2,
    launch_rmsNorm N epsilon hweight (order.scheduled hrows)
      (by rw [output.sized, houtput.1, houtput.2])]
  · exact written_eq _ (Grid.generate input.rows input.columns _)
  · rw [hfinite, hpositive]
    push Not
    exact ⟨houtput.1, houtput.2, hweight, Bool.noConfusion, Bool.noConfusion⟩

theorem applyActivation_eq {type : Int} (htype : type = 0 ∨ type = 1)
    (houtput : output.rows = input.rows ∧ output.columns = input.columns)
    (hcount : input.rows * input.columns < 2 ^ 31) :
    applyActivation N order type input output = .ok (input.map fun value =>
      if type = 0 then value / (1 + N.exp (-value))
      else 1 / 2 * value * (1 + N.erf (value * N.ofFloat ⟨0x3f3504f3⟩))) := by
  unfold applyActivation
  dsimp only
  rw [validateCudaElementwise_eq ⟨rfl, rfl⟩ houtput]
  show (throwIf _ _ >>= _) = _
  rw [throwIf_bind_of_not (by omega), houtput.1, houtput.2, ← input.sized,
    launch_activation N type ⟨order.perm _, by rw [input.sized]; unfold threadsPerBlock; omega⟩
      (by rw [output.sized, houtput.1, houtput.2, input.sized])]
  refine written_of_getD _ (by rw [List.length_map, input.sized]) _ fun row hrow column hcolumn => ?_
  have hlt := Grid.address_lt hrow hcolumn
  rw [← input.sized] at hlt
  rw [List.getD_eq_getElem _ _ (by rwa [List.length_map]), List.getElem_map, Grid.get,
    List.getD_eq_getElem _ _ hlt]

theorem checkedIndices_eq {what : String} {limit : Nat} {rows : List Nat}
    (hrows : ∀ row ∈ rows, row < limit) (hlimit : limit ≤ 2 ^ 32) :
    checkedIndices what limit rows = .ok rows := by
  refine collect_eq_ok.mpr (List.forall₂_same.mpr fun row hrow => ?_)
  have hlt := hrows row hrow
  exact throwIf_bind_of_not (by omega)

theorem gatherRows_eq {rows : List Nat} (hne : rows ≠ []) (houtput : output.rows = rows.length ∧
    output.columns = input.columns) (hrows : ∀ row ∈ rows, row < input.rows)
    (hlimit : input.rows ≤ 2 ^ 32) (hcount : rows.length * input.columns < 2 ^ 31) :
    gatherRows order input rows output = .ok (Grid.generate rows.length input.columns
      fun row column => input.get (rows.getD row 0) column) := by
  unfold gatherRows
  rw [throwIf_bind_of_not (by push Not; exact ⟨hne, houtput⟩), checkedIndices_eq hrows hlimit]
  show written _ _ _ _ = _
  rw [launch_gatherRows hrows (order.scheduled hcount)
    (by rw [output.sized, houtput.1, houtput.2]), houtput.1, houtput.2]
  exact written_eq _ (Grid.generate rows.length input.columns _)

theorem zero_eq (hcount : output.rows * output.columns < 2 ^ 31) :
    zero order output = .ok (Grid.generate output.rows output.columns fun _ _ => (0 : K)) := by
  unfold zero
  rw [launch_zero (order.scheduled hcount) output.sized]
  exact written_eq _ (Grid.generate output.rows output.columns fun _ _ => (0 : K))

omit [Field K] in
theorem checkedProduct_eq {left right : Nat} {operation : String} (h : left * right < 2 ^ 64) :
    checkedProduct left right operation = .ok (left * right) := by
  refine throwIf_bind_of_not ?_
  rintro ⟨hleft, hright⟩
  have hlt := (Nat.div_lt_iff_lt_mul (Nat.pos_of_ne_zero hleft)).mp hright
  rw [Nat.mul_comm] at hlt
  omega

/-- the additions, whatever their order: those of the rows that go to a row -/
theorem scatterAddRows_eq {rows : List Nat} {weights : List K} (hne : rows ≠ [])
    (hweights : rows.length = weights.length) (hinput : input.rows = rows.length)
    (hcolumns : input.columns = output.columns) (hrows : ∀ row ∈ rows, row < output.rows)
    (hlimit : output.rows ≤ 2 ^ 32) (hcount : rows.length * input.columns < 2 ^ 31) :
    scatterAddRows order input rows weights output = .ok (Grid.generate output.rows output.columns
      fun row column => output.get row column + ∑ i ∈ Finset.range rows.length,
        if rows.getD i 0 = row then input.get i column * weights.getD i 0 else 0) := by
  unfold scatterAddRows
  rw [throwIf_bind_of_not (by push Not; exact ⟨hne, hweights, hinput, hcolumns⟩),
    checkedIndices_eq hrows hlimit]
  show written _ _ _ _ = _
  have hscheduled : Scheduled (order.threads (rows.length * input.columns))
      (input.rows * input.columns) := by
    rw [hinput]
    exact order.scheduled hcount
  have hsized : output.values.length = output.rows * input.columns := by
    rw [output.sized, hcolumns]
  obtain ⟨values, hlaunch, hlength, hget⟩ := launch_scatterAddRows hinput.symm
    (hweights.symm.trans hinput.symm) hrows hscheduled hsized
  rw [hinput] at hlaunch
  rw [hlaunch]
  refine written_of_getD _ (hlength.trans (by rw [hcolumns])) _ fun row hrow column hcolumn => ?_
  rw [hget, Grid.get]
  refine congrArg _ ?_
  rw [sum_rows, hinput]
  refine Finset.sum_congr rfl fun i _ => ?_
  have hcolumn' : column < input.columns := hcolumns.symm ▸ hcolumn
  have hterm : ∀ j ∈ Finset.range input.columns,
      (if rows.getD ((i * input.columns + j) / input.columns) 0 * input.columns +
          (i * input.columns + j) % input.columns = row * output.columns + column
        then input.values.getD (i * input.columns + j) 0 *
          weights.getD ((i * input.columns + j) / input.columns) 0 else 0) =
      if j = column then (if rows.getD i 0 = row then input.get i j * weights.getD i 0 else 0)
        else 0 := by
    intro j hj
    have hlt := Finset.mem_range.mp hj
    have hcell : rows.getD i 0 * input.columns + j = row * input.columns + column ↔
        rows.getD i 0 = row ∧ j = column := Grid.address_inj hlt hcolumn'
    rw [Grid.address_div i hlt, Grid.address_mod i hlt, ← hcolumns]
    by_cases hj : j = column
    · rw [if_pos hj]
      exact if_congr (hcell.trans (and_iff_left hj)) rfl rfl
    · rw [if_neg hj, if_neg fun h => hj (hcell.mp h).2]
  rw [Finset.sum_congr rfl hterm, Finset.sum_ite_eq', if_pos (Finset.mem_range.mpr hcolumn')]

end

end CudaTensorBackend

end HyperMoE.Tensor
