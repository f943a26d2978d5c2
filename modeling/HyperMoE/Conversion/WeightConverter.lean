import HyperMoE.Lib.FloatValue
import HyperMoE.Lib.Records
import HyperMoE.Tensor.Addressing
import HyperMoE.Transformer.ModelRuntime

/-!
# Weights in another layout

`WeightConverter.cpp`: the bytes of a matrix, stored by its inputs or by its outputs, in the layout
that is asked for.

* `convert`            the converter;
* `element`            the bytes of one weight, by its input and its output;
* `SameWeight`         two buffers of one matrix;
* `convert_preserves`  when a buffer is converted, to what, and back;
* `weightGrid`         the numbers that a buffer stands for;
* `execute_convert`    a head that was converted answers as before.
-/

namespace HyperMoE.Conversion

open Lib Lib.Outcome Tensor Models Transformer
open Lib.Fallible (wp)

structure ConvertedWeight where
  bytes : List UInt8
  shape : Shape
  dtype : DType := .FP32
  layout : TensorLayout := .InputOutput

/-- `shape.dimensions()[0]` -/
def rows (shape : Shape) : Nat := (shape.dimensions.getD 0 0).toNat

/-- `shape.dimensions()[1]` -/
def columns (shape : Shape) : Nat := (shape.dimensions.getD 1 0).toNat

/-- the result is allocated with zeros, and filled weight by weight -/
def convert (source : List UInt8) (shape : Shape) (dtype : DType)
    (sourceLayout targetLayout : TensorLayout) : Except StdError ConvertedWeight := do
  throwIf (shape.rank ≠ 2) (.invalid_argument "weight conversion requires rank two")
  throwIf (dtype.sizeOf = 0 ∨ shape.elementCount > maxWord / dtype.sizeOf ∨
      source.length ≠ (shape.elementCount * dtype.sizeOf).toNat)
    (.invalid_argument "weight bytes do not match shape and dtype")
  if sourceLayout = targetLayout then
    return { bytes := source, shape, dtype, layout := targetLayout }
  else
    let bytes := transpose dtype.sizeOf.toNat (rows shape) (columns shape) source
      (List.replicate source.length 0)
    let shape ← ((Shape.ofDimensions [shape.dimensions.getD 1 0, shape.dimensions.getD 0 0]).exec
      true).1
    return { bytes, shape, dtype, layout := targetLayout }

/-! ## the matrix of a buffer -/

namespace ConvertedWeight

def inputs (w : ConvertedWeight) : Nat :=
  match w.layout with
  | .InputOutput => rows w.shape
  | .OutputInput => columns w.shape

def outputs (w : ConvertedWeight) : Nat :=
  match w.layout with
  | .InputOutput => columns w.shape
  | .OutputInput => rows w.shape

/-- the bytes of the weight between an input and an output -/
def element (w : ConvertedWeight) (input output : Nat) : List UInt8 :=
  match w.layout with
  | .InputOutput => record w.dtype.sizeOf.toNat w.bytes (input * columns w.shape + output)
  | .OutputInput => record w.dtype.sizeOf.toNat w.bytes (output * columns w.shape + input)

end ConvertedWeight

structure SameWeight (w w' : ConvertedWeight) : Prop where
  dtype : w'.dtype = w.dtype
  inputs : w'.inputs = w.inputs
  outputs : w'.outputs = w.outputs
  element : ∀ input < w.inputs, ∀ output < w.outputs, w'.element input output = w.element input output

theorem SameWeight.refl (w : ConvertedWeight) : SameWeight w w := ⟨rfl, rfl, rfl, fun _ _ _ _ => rfl⟩

theorem SameWeight.trans {w w' w'' : ConvertedWeight} (h : SameWeight w w') (h' : SameWeight w' w'') :
    SameWeight w w'' where
  dtype := h'.dtype.trans h.dtype
  inputs := h'.inputs.trans h.inputs
  outputs := h'.outputs.trans h.outputs
  element input hinput output houtput := (h'.element input (h.inputs.symm ▸ hinput) output
    (h.outputs.symm ▸ houtput)).trans (h.element input hinput output houtput)

/-! ## shapes -/

section
variable {dimensions : List UInt64} {exact : Bool}

/-- a product that is a word is computed -/
theorem wp_product_of_lt {zero overflow : StdError} {elements : UInt64}
    (hne : ∀ d ∈ dimensions, d ≠ 0) (hlt : elements.toNat * size dimensions < 2 ^ 64) :
    wp (Watched.product zero overflow elements dimensions) (fun r _ => ∃ c, r = .ok c) exact := by
  induction dimensions generalizing elements exact with
  | nil => exact ⟨elements, rfl⟩
  | cons d dimensions ih =>
    have hd := hne d List.mem_cons_self
    have hpos : 1 ≤ size dimensions :=
      Nat.pos_of_ne_zero fun h0 => by
        obtain ⟨d', hd', hzero⟩ := List.mem_map.mp (List.prod_eq_zero_iff.mp h0)
        exact hne d' (List.mem_cons_of_mem _ hd') (UInt64.toNat_inj.mp hzero)
    rw [size_cons, ← Nat.mul_assoc] at hlt
    have hmul : elements.toNat * d.toNat < 2 ^ 64 :=
      Nat.lt_of_le_of_lt (Nat.le_mul_of_pos_right _ hpos) hlt
    have hfits : ¬ elements > maxWord / d := by
      rw [UInt64.not_lt, UInt64.le_iff_toNat_le, UInt64.toNat_div, Watched.toNat_maxWord,
        Nat.le_div_iff_mul_le (toNat_pos hd)]
      omega
    unfold Watched.product
    rw [Fallible.wp_bind, Fallible.wp_throwIf, if_neg hd]
    show wp _ _ _
    rw [Fallible.wp_bind, Fallible.wp_throwIf, if_neg hfits]
    show wp _ _ _
    rw [Fallible.wp_bind]
    refine Watched.wp_mul hmul fun c hc => ih (fun d' hd' => hne d' (List.mem_cons_of_mem _ hd')) ?_
    rw [hc]
    exact hlt

/-- dimensions whose product is a word have a shape -/
theorem exists_ofDimensions (hne : ∀ d ∈ dimensions, d ≠ 0) (hlt : size dimensions < 2 ^ 64) :
    ∃ shape, ((Shape.ofDimensions dimensions).exec true).1 = .ok shape := by
  have hcontiguous : wp (contiguous dimensions) (fun r _ => ∃ e, r = .ok e) true := by
    unfold contiguous validateAndCount
    rw [Fallible.wp_bind]
    have hone : (1 : UInt64).toNat * size dimensions < 2 ^ 64 := by simpa using hlt
    refine Fallible.wp_mono (wp_product_of_lt hne hone) fun r exact' h => ?_
    obtain ⟨c, rfl⟩ := h
    show wp _ _ _
    rw [Fallible.wp_bind]
    refine Fallible.wp_mono (wp_makeContiguousStrides hne hlt) fun r exact'' h => ?_
    obtain ⟨-, strides, stride, rfl, -⟩ := h
    exact ⟨_, rfl⟩
  have hshape : wp (Shape.ofDimensions dimensions) (fun r _ => ∃ shape, r = .ok shape) true := by
    unfold Shape.ofDimensions
    rw [Fallible.wp_bind]
    have hexact := Fallible.wp_mono (wp_contiguous dimensions true) fun _ _ h => h.1
    have hboth : wp (contiguous dimensions) (fun r exact' => exact' = true ∧ ∃ e, r = .ok e) true :=
      Fallible.wp_and hexact hcontiguous
    refine Watched.wp_attach hboth (fun e he h => ⟨_, rfl⟩) fun e h => ?_
    obtain ⟨e', he'⟩ := h
    cases he'
  exact hshape

/-- a matrix has two dimensions, none of them zero -/
theorem dimensions_of_rank {shape : Shape} (h : shape.rank = 2) :
    ∃ a b, shape.dimensions = [a, b] ∧ a ≠ 0 ∧ b ≠ 0 := by
  have hne := shape.counts.nonzero
  obtain ⟨a, b, hdimensions⟩ := List.length_eq_two.mp h
  rw [hdimensions] at hne
  exact ⟨a, b, hdimensions, hne a (by simp), hne b (by simp)⟩

theorem elementCount_eq {shape : Shape} (h : shape.rank = 2) :
    shape.elementCount.toNat = rows shape * columns shape := by
  obtain ⟨a, b, hdimensions, -⟩ := dimensions_of_rank h
  rw [shape.counts.elementCount, rows, columns, hdimensions]
  simp [size]

end

/-! ## the converter -/

/-- the bytes are those of a matrix of this shape -/
structure Matches (bytes : List UInt8) (shape : Shape) (dtype : DType) : Prop where
  rank : shape.rank = 2
  length : bytes.length = rows shape * columns shape * dtype.sizeOf.toNat
  small : bytes.length < 2 ^ 64

section
variable {source : List UInt8} {shape : Shape} {dtype : DType}
  {sourceLayout targetLayout : TensorLayout} {r : ConvertedWeight}

theorem matches_iff : Matches source shape dtype ↔ shape.rank = 2 ∧
    ¬ (dtype.sizeOf = 0 ∨ shape.elementCount > maxWord / dtype.sizeOf ∨
      source.length ≠ (shape.elementCount * dtype.sizeOf).toNat) := by
  have hwidth := dtype.sizeOf_ne_zero
  have hmul : shape.elementCount ≤ maxWord / dtype.sizeOf ↔
      shape.elementCount.toNat * dtype.sizeOf.toNat < 2 ^ 64 := by
    rw [UInt64.le_iff_toNat_le, UInt64.toNat_div, Watched.toNat_maxWord,
      Nat.le_div_iff_mul_le (toNat_pos hwidth)]
    omega
  push Not
  rw [UInt64.not_lt, hmul]
  constructor
  · intro h
    have hcount := elementCount_eq h.rank
    have hlt : shape.elementCount.toNat * dtype.sizeOf.toNat < 2 ^ 64 := by
      rw [hcount, ← h.length]
      exact h.small
    refine ⟨h.rank, hwidth, hlt, ?_⟩
    rw [UInt64.toNat_mul, Nat.mod_eq_of_lt hlt, hcount]
    exact h.length
  · rintro ⟨hrank, -, hlt, hlength⟩
    rw [UInt64.toNat_mul, Nat.mod_eq_of_lt hlt] at hlength
    refine ⟨hrank, ?_, ?_⟩
    · rw [hlength, elementCount_eq hrank]
    · rw [hlength]
      exact hlt

/-- what the converter answers -/
theorem convert_eq_ok : convert source shape dtype sourceLayout targetLayout = .ok r ↔
    Matches source shape dtype ∧
    if sourceLayout = targetLayout then r = ⟨source, shape, dtype, targetLayout⟩
    else ∃ turned, ((Shape.ofDimensions [shape.dimensions.getD 1 0, shape.dimensions.getD 0 0]).exec
        true).1 = .ok turned ∧
      r = ⟨transpose dtype.sizeOf.toNat (rows shape) (columns shape) source
        (List.replicate source.length 0), turned, dtype, targetLayout⟩ := by
  unfold convert
  rw [throwIf_bind_eq_ok, throwIf_bind_eq_ok, not_not, matches_iff, and_assoc]
  refine and_congr_right fun _ => and_congr_right fun _ => ?_
  by_cases h : sourceLayout = targetLayout
  · rw [if_pos h, if_pos h, pure_eq_ok, eq_comm]
  · rw [if_neg h, if_neg h]
    constructor
    · intro hr
      obtain ⟨turned, hturned, hr⟩ := bind_eq_ok.mp hr
      exact ⟨turned, hturned, (pure_eq_ok.mp hr).symm⟩
    · rintro ⟨turned, hturned, rfl⟩
      exact bind_eq_ok.mpr ⟨turned, hturned, rfl⟩

/-- the shape with its dimensions turned around -/
theorem turned_of_ofDimensions {turned : Shape} (hrank : shape.rank = 2)
    (h : ((Shape.ofDimensions [shape.dimensions.getD 1 0, shape.dimensions.getD 0 0]).exec true).1 =
      .ok turned) :
    turned.rank = 2 ∧ rows turned = columns shape ∧ columns turned = rows shape ∧
      turned.dimensions = shape.dimensions.reverse := by
  have hdimensions := (Shape.returns_ofDimensions _ true turned h).1
  obtain ⟨a, b, hshape, -⟩ := dimensions_of_rank hrank
  rw [hshape] at hdimensions
  unfold rows columns Shape.rank
  rw [hdimensions, hshape]
  exact ⟨rfl, rfl, rfl, rfl⟩

theorem exists_turned (h : Matches source shape dtype) :
    ∃ turned, ((Shape.ofDimensions [shape.dimensions.getD 1 0, shape.dimensions.getD 0 0]).exec
      true).1 = .ok turned := by
  obtain ⟨a, b, hshape, ha, hb⟩ := dimensions_of_rank h.rank
  have hcount := elementCount_eq h.rank
  have hlt := UInt64.toNat_lt shape.elementCount
  have hproduct : size [b, a] = rows shape * columns shape := by
    unfold rows columns
    rw [hshape]
    simp [size, Nat.mul_comm]
  rw [hshape]
  show ∃ turned, ((Shape.ofDimensions [b, a]).exec true).1 = .ok turned
  refine exists_ofDimensions ?_ ?_
  · intro d hd
    rcases List.mem_cons.mp hd with rfl | hd
    · exact hb
    · exact List.mem_singleton.mp hd ▸ ha
  · rw [hproduct, ← hcount]
    exact hlt

theorem length_zeros : (List.replicate source.length (0 : UInt8)).length = source.length :=
  List.length_replicate

/-- what was converted is a matrix again -/
theorem matches_convert (h : convert source shape dtype sourceLayout targetLayout = .ok r) :
    Matches r.bytes r.shape r.dtype ∧ r.dtype = dtype ∧ r.layout = targetLayout := by
  obtain ⟨hmatches, h⟩ := convert_eq_ok.mp h
  split at h
  · subst h
    exact ⟨hmatches, rfl, rfl⟩
  · obtain ⟨turned, hturned, rfl⟩ := h
    obtain ⟨hrank, hrows, hcolumns, -⟩ := turned_of_ofDimensions hmatches.rank hturned
    have hlength := length_transpose hmatches.length length_zeros
    refine ⟨⟨hrank, ?_, ?_⟩, rfl, rfl⟩
    · rw [hlength, hrows, hcolumns, Nat.mul_comm (columns shape)]
      exact hmatches.length
    · rw [hlength]
      exact hmatches.small

/-- the rows have no gaps between them if those of the source have none -/
theorem contiguous_convert (hcontiguous : shape.isContiguous = true)
    (h : convert source shape dtype sourceLayout targetLayout = .ok r) :
    r.shape.isContiguous = true := by
  obtain ⟨-, h⟩ := convert_eq_ok.mp h
  split at h
  · rw [h]
    exact hcontiguous
  · obtain ⟨turned, hturned, rfl⟩ := h
    exact (Shape.returns_ofDimensions _ true turned hturned).2

/-- the weights are the same, one by one -/
theorem sameWeight_convert (h : convert source shape dtype sourceLayout targetLayout = .ok r) :
    SameWeight ⟨source, shape, dtype, sourceLayout⟩ r := by
  obtain ⟨hmatches, h⟩ := convert_eq_ok.mp h
  split at h
  · next hlayout =>
    subst hlayout h
    exact SameWeight.refl _
  next hlayout =>
  obtain ⟨turned, hturned, rfl⟩ := h
  obtain ⟨-, hrows, hcolumns, -⟩ := turned_of_ofDimensions hmatches.rank hturned
  have hrecord : ∀ row < rows shape, ∀ column < columns shape,
      record dtype.sizeOf.toNat (transpose dtype.sizeOf.toNat (rows shape) (columns shape) source
        (List.replicate source.length 0)) (column * columns turned + row) =
        record dtype.sizeOf.toNat source (row * columns shape + column) := by
    intro row hrow column hcolumn
    rw [hcolumns]
    exact record_transpose hmatches.length length_zeros hrow hcolumn
  cases sourceLayout with
  | InputOutput =>
    cases targetLayout with
    | InputOutput => exact absurd rfl hlayout
    | OutputInput => exact ⟨rfl, hcolumns, hrows, fun input hinput output houtput =>
        hrecord input hinput output houtput⟩
  | OutputInput =>
    cases targetLayout with
    | InputOutput => exact ⟨rfl, hrows, hcolumns, fun input hinput output houtput =>
        hrecord output houtput input hinput⟩
    | OutputInput => exact absurd rfl hlayout

/-- bytes that stand for the same weights in the same layout are the same -/
theorem bytes_of_sameWeight {w w' : ConvertedWeight} (hw : Matches w.bytes w.shape w.dtype)
    (hw' : Matches w'.bytes w'.shape w'.dtype) (hlayout : w'.layout = w.layout)
    (h : SameWeight w w') : w'.bytes = w.bytes := by
  obtain ⟨hdtype, hinputs, houtputs, helement⟩ := h
  obtain ⟨bytes, shape, dtype, layout⟩ := w
  obtain ⟨bytes', shape', dtype', layout'⟩ := w'
  obtain rfl : layout' = layout := hlayout
  obtain rfl : dtype' = dtype := hdtype
  have hextents : rows shape' = rows shape ∧ columns shape' = columns shape := by
    cases layout' with
    | InputOutput => exact ⟨hinputs, houtputs⟩
    | OutputInput => exact ⟨houtputs, hinputs⟩
  have hrecord : ∀ row < rows shape, ∀ column < columns shape,
      record dtype'.sizeOf.toNat bytes' (row * columns shape + column) =
        record dtype'.sizeOf.toNat bytes (row * columns shape + column) := by
    intro row hrow column hcolumn
    cases layout' with
    | InputOutput =>
      have h : record _ bytes' (row * columns shape' + column) = _ := helement row hrow column hcolumn
      rw [hextents.2] at h
      exact h
    | OutputInput =>
      have h : record _ bytes' (row * columns shape' + column) = _ := helement column hcolumn row hrow
      rw [hextents.2] at h
      exact h
  have hlength : bytes'.length = rows shape' * columns shape' * dtype'.sizeOf.toNat := hw'.length
  rw [hextents.1, hextents.2] at hlength
  refine ext_record hlength hw.length fun k hk => ?_
  have hcolumns : 0 < columns shape := Nat.pos_of_ne_zero fun h0 => by simp [h0] at hk
  have hrow : k / columns shape < rows shape := (Nat.div_lt_iff_lt_mul hcolumns).mpr hk
  have hk' := hrecord (k / columns shape) hrow (k % columns shape) (Nat.mod_lt k hcolumns)
  rwa [Nat.div_add_mod'] at hk'

theorem exists_convert (h : Matches source shape dtype) :
    ∃ r, convert source shape dtype sourceLayout targetLayout = .ok r := by
  by_cases hlayout : sourceLayout = targetLayout
  · exact ⟨_, convert_eq_ok.mpr ⟨h, (if_pos hlayout).mpr rfl⟩⟩
  · obtain ⟨turned, hturned⟩ := exists_turned h
    exact ⟨_, convert_eq_ok.mpr ⟨h, (if_neg hlayout).mpr ⟨turned, hturned, rfl⟩⟩⟩

/-- the dimensions of what was converted there and back -/
theorem dimensions_back {back : ConvertedWeight}
    (h : convert source shape dtype sourceLayout targetLayout = .ok r)
    (hback : convert r.bytes r.shape r.dtype targetLayout sourceLayout = .ok back) :
    back.shape.dimensions = shape.dimensions := by
  obtain ⟨hmatches, h⟩ := convert_eq_ok.mp h
  obtain ⟨hmatches', hback⟩ := convert_eq_ok.mp hback
  by_cases hlayout : sourceLayout = targetLayout
  · rw [if_pos hlayout] at h
    rw [if_pos hlayout.symm] at hback
    rw [hback, h]
  · rw [if_neg hlayout] at h
    rw [if_neg (Ne.symm hlayout)] at hback
    obtain ⟨turned, hturned, rfl⟩ := h
    obtain ⟨turned', hturned', rfl⟩ := hback
    have hdimensions := (turned_of_ofDimensions hmatches.rank hturned).2.2.2
    have hdimensions' := (turned_of_ofDimensions hmatches'.rank hturned').2.2.2
    rw [hdimensions', hdimensions, List.reverse_reverse]

theorem built_smallShape : ((contiguous [2, 3]).exec true).1 = .ok ⟨[2, 3], [3, 1], 6, 6⟩ ∨
    ((strided [2, 3] [3, 1]).exec true).1 = .ok ⟨[2, 3], [3, 1], 6, 6⟩ := .inl rfl

/-- two outputs and three inputs, stored by the outputs -/
def smallShape : Shape := ⟨⟨[2, 3], [3, 1], 6, 6⟩, built_smallShape⟩

example : ((convert [1, 2, 3, 4, 5, 6] smallShape .INT8 .OutputInput .InputOutput).toOption.map
    fun r => (r.bytes, r.shape.dimensions)) = some ([1, 4, 2, 5, 3, 6], [3, 2]) := by
  decide +kernel

/-- A matrix of rank two is converted, to the same weights; and converted back, to the same bytes. -/
theorem convert_preserves (source : List UInt8) (shape : Shape) (dtype : DType)
    (sourceLayout targetLayout : TensorLayout) :
    ((∃ r, convert source shape dtype sourceLayout targetLayout = .ok r) ↔
      shape.rank = 2 ∧ source.length = rows shape * columns shape * dtype.sizeOf.toNat ∧
        source.length < 2 ^ 64) ∧
    ∀ r, convert source shape dtype sourceLayout targetLayout = .ok r →
      r.layout = targetLayout ∧ SameWeight ⟨source, shape, dtype, sourceLayout⟩ r ∧
      ∃ back, convert r.bytes r.shape r.dtype targetLayout sourceLayout = .ok back ∧
        back.bytes = source ∧ back.shape.dimensions = shape.dimensions ∧ back.dtype = dtype ∧
        back.layout = sourceLayout := by
  refine ⟨⟨?_, ?_⟩, fun r h => ?_⟩
  · rintro ⟨r, h⟩
    obtain ⟨hmatches, -⟩ := convert_eq_ok.mp h
    exact ⟨hmatches.rank, hmatches.length, hmatches.small⟩
  · rintro ⟨hrank, hlength, hsmall⟩
    exact exists_convert ⟨hrank, hlength, hsmall⟩
  obtain ⟨hmatches, hdtype, hlayout⟩ := matches_convert h
  have hsame := sameWeight_convert h
  obtain ⟨back, hback⟩ : ∃ back, convert r.bytes r.shape r.dtype targetLayout sourceLayout = .ok back :=
    exists_convert hmatches
  obtain ⟨hmatches', hdtype', hlayout'⟩ := matches_convert hback
  have hsame' := sameWeight_convert hback
  rw [← hlayout] at hsame'
  refine ⟨hlayout, hsame, back, hback, ?_, dimensions_back h hback, hdtype'.trans hdtype, hlayout'⟩
  exact bytes_of_sameWeight (convert_eq_ok.mp h).1 hmatches' hlayout' (hsame.trans hsame')

theorem convert_preserves_small : ∃ r,
    convert [1, 2, 3, 4, 5, 6] smallShape .INT8 .OutputInput .InputOutput = .ok r ∧
    SameWeight ⟨[1, 2, 3, 4, 5, 6], smallShape, .INT8, .OutputInput⟩ r ∧
    ∃ back, convert r.bytes r.shape r.dtype .InputOutput .OutputInput = .ok back ∧
      back.bytes = [1, 2, 3, 4, 5, 6] := by
  obtain ⟨hiff, hall⟩ := convert_preserves [1, 2, 3, 4, 5, 6] smallShape .INT8 .OutputInput .InputOutput
  obtain ⟨r, h⟩ := hiff.mpr ⟨rfl, rfl, by decide⟩
  obtain ⟨-, hsame, back, hback, hbytes, -⟩ := hall r h
  exact ⟨r, h, hsame, back, hback, hbytes⟩

/-! ## the head -/

variable {K : Type} [Field K] {value : List UInt8 → K} {hidden : Grid K}
  {vocabularySize hiddenDimension : Nat}

/-- the numbers of a buffer, in the order in which they are stored -/
def weightGrid (value : List UInt8 → K) (w : ConvertedWeight) : Grid K :=
  Grid.generate (rows w.shape) (columns w.shape) fun row column =>
    value (record w.dtype.sizeOf.toNat w.bytes (row * columns w.shape + column))

/-- what a head answers, by the weights between inputs and outputs -/
def headLogits (value : List UInt8 → K) (w : ConvertedWeight) (hidden : Grid K) : Grid K :=
  Grid.generate hidden.rows w.outputs fun token output =>
    ∑ input ∈ Finset.range w.inputs, hidden.get token input * value (w.element input output)

theorem get_weightGrid {w : ConvertedWeight} {row column : Nat} (hrow : row < rows w.shape)
    (hcolumn : column < columns w.shape) : (weightGrid value w).get row column =
      value (record w.dtype.sizeOf.toNat w.bytes (row * columns w.shape + column)) :=
  Grid.get_generate _ hrow hcolumn

omit [Field K] in
/-- the shape that the head asks for is the one of its inputs and outputs -/
theorem headShape_iff (w : ConvertedWeight) :
    ((weightGrid value w).rows, (weightGrid value w).columns) =
      headShape w.layout hiddenDimension vocabularySize ↔
    w.inputs = hiddenDimension ∧ w.outputs = vocabularySize := by
  obtain ⟨bytes, shape, dtype, layout⟩ := w
  cases layout with
  | InputOutput => exact Prod.ext_iff
  | OutputInput => exact Prod.ext_iff.trans and_comm

/-- both loops of the head compute the same, each on its own layout -/
theorem execute_weightGrid (w : ConvertedWeight) :
    LMHead.execute w.layout vocabularySize hiddenDimension hidden (weightGrid value w) = do
      throwIf (hidden.columns ≠ hiddenDimension ∨
          ¬ (w.inputs = hiddenDimension ∧ w.outputs = vocabularySize))
        (.invalid_argument "LM head requires compatible contiguous backend FP32 tensors")
      return headLogits value w hidden := by
  unfold LMHead.execute LMHead.check
  simp only [ne_eq, headShape_iff w]
  by_cases h : ¬ hidden.columns = hiddenDimension ∨
      ¬ (w.inputs = hiddenDimension ∧ w.outputs = vocabularySize)
  · rw [throwIf, if_pos h]
    rfl
  rw [throwIf_bind_of_not h, throwIf_bind_of_not h]
  push Not at h
  obtain ⟨hhidden, rfl, rfl⟩ := h
  obtain ⟨bytes, shape, dtype, layout⟩ := w
  cases layout with
  | InputOutput =>
    refine matmul_eq_ok.mpr ⟨⟨hhidden.symm, rfl, rfl⟩, ?_⟩
    rw [← product_eq_mapRows, product, hhidden]
    refine Grid.ext_get rfl rfl fun token htoken output houtput => ?_
    have htoken' : token < hidden.rows := htoken
    have houtput' : output < columns shape := houtput
    refine (Grid.get_generate _ htoken' houtput').trans
      (.trans ?_ (Grid.get_generate _ htoken' houtput').symm)
    refine Finset.sum_congr rfl fun input hinput => ?_
    rw [get_weightGrid (Finset.mem_range.mp hinput) houtput']
    rfl
  | OutputInput =>
    refine congrArg Except.ok (Grid.ext_get rfl rfl fun token htoken output houtput => ?_)
    have htoken' : token < hidden.rows := htoken
    have houtput' : output < rows shape := houtput
    refine (Grid.get_generate _ htoken' houtput').trans
      (.trans ?_ (Grid.get_generate _ htoken' houtput').symm)
    refine Finset.sum_congr rfl fun input hinput => ?_
    rw [get_weightGrid houtput' (Finset.mem_range.mp hinput)]
    rfl

theorem headLogits_same {w w' : ConvertedWeight} (h : SameWeight w w') :
    headLogits value w' hidden = headLogits value w hidden := by
  unfold headLogits
  rw [h.outputs, h.inputs]
  refine Grid.ext_get rfl rfl fun token htoken output houtput => ?_
  have htoken' : token < hidden.rows := htoken
  have houtput' : output < w.outputs := houtput
  rw [Grid.get_generate _ htoken' houtput', Grid.get_generate _ htoken' houtput']
  refine Finset.sum_congr rfl fun input hinput => ?_
  rw [h.element input (Finset.mem_range.mp hinput) output houtput']

/-- a head answers by its weights, in whichever layout they are stored -/
theorem execute_same {w w' : ConvertedWeight} (h : SameWeight w w') :
    LMHead.execute w'.layout vocabularySize hiddenDimension hidden (weightGrid value w') =
      LMHead.execute w.layout vocabularySize hiddenDimension hidden (weightGrid value w) := by
  rw [execute_weightGrid, execute_weightGrid, h.inputs, h.outputs, headLogits_same h]

/-- A head that was converted answers as before, in whichever layout it is stored; a head takes its
weights without gaps between the rows, and has none after the conversion. -/
theorem execute_convert (value : List UInt8 → K) (hidden : Grid K)
    (vocabularySize hiddenDimension : Nat) (source : List UInt8) (shape : Shape)
    (sourceLayout targetLayout : TensorLayout) (r : ConvertedWeight)
    (hcontiguous : shape.isContiguous = true)
    (h : convert source shape .FP32 sourceLayout targetLayout = .ok r) :
    r.shape.isContiguous = true ∧
    LMHead.execute targetLayout vocabularySize hiddenDimension hidden (weightGrid value r) =
      LMHead.execute sourceLayout vocabularySize hiddenDimension hidden
        (weightGrid value ⟨source, shape, .FP32, sourceLayout⟩) := by
  obtain ⟨-, -, hlayout⟩ := matches_convert h
  refine ⟨contiguous_convert hcontiguous h, ?_⟩
  rw [← hlayout]
  exact execute_same (sameWeight_convert h)

/-- the number that four bytes stand for -/
def singleValue (bytes : List UInt8) : ℚ :=
  Binary32.value ⟨bytes.foldr (fun byte word => byte.toUInt32 + 256 * word) 0⟩

/-- the numbers from 1 to 6 -/
def smallWeights : List UInt8 :=
  [0, 0, 128, 63, 0, 0, 0, 64, 0, 0, 64, 64, 0, 0, 128, 64, 0, 0, 160, 64, 0, 0, 192, 64]

theorem length_smallHidden : [(1 : ℚ), 2, 3].length = 1 * 3 := rfl

def smallHidden : Grid ℚ := ⟨1, 3, [1, 2, 3], length_smallHidden⟩

example : ((LMHead.execute .OutputInput 2 3 smallHidden (weightGrid singleValue
    ⟨smallWeights, smallShape, .FP32, .OutputInput⟩)).toOption.map Grid.values) = some [14, 32] := by
  decide +kernel

theorem execute_convert_small : ∃ r,
    convert smallWeights smallShape .FP32 .OutputInput .InputOutput = .ok r ∧
    r.shape.isContiguous = true ∧ LMHead.execute .InputOutput 2 3 smallHidden (weightGrid singleValue r) =
      LMHead.execute .OutputInput 2 3 smallHidden
        (weightGrid singleValue ⟨smallWeights, smallShape, .FP32, .OutputInput⟩) := by
  obtain ⟨r, h⟩ : ∃ r, convert smallWeights smallShape .FP32 .OutputInput .InputOutput = .ok r :=
    exists_convert ⟨rfl, rfl, by decide⟩
  exact ⟨r, h, execute_convert singleValue smallHidden 2 3 _ _ _ _ r (by decide) h⟩

end

end HyperMoE.Conversion
