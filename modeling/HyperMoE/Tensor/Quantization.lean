import Mathlib.Data.Rat.Floor
import HyperMoE.Lib.Extended
import HyperMoE.Lib.Rounding
import HyperMoE.Models.ModelManifest

/-!
# Symmetric INT8

`Quantization.cpp`: values as signed bytes, in units of a scale that the greatest magnitude gives,
and the values of such bytes.  The numbers are exact, and a scale is finite.

* `quantizeInt8`, `dequantizeInt8`   there and back;
* `unit`                             the scale of a list of values;
* `code`                             the byte of a value, as an integer;
* `code_near`                        a value is near what its byte stands for;
* `requantize`                       what the bytes stand for has the same bytes.
-/

namespace HyperMoE.Tensor.Quantization

open Lib Lib.Outcome

variable {K : Type} [Field K] [LinearOrder K] [FloorRing K]

structure QuantizationParameters (K : Type) where
  scale : K
  zeroPoint : Int32 := 0
  deriving DecidableEq

structure Int8QuantizationResult (K : Type) where
  bytes : List UInt8
  parameters : QuantizationParameters K
  maximumAbsoluteError : K
  deriving DecidableEq

def validateParameters (dtype : Models.QuantizedDType) (parameters : QuantizationParameters K) :
    Except StdError Unit := do
  throwIf (parameters.scale ≤ 0) (.invalid_argument "quantization scale must be finite and positive")
  match dtype with
  | .INT8 | .Q8 =>
    throwIf (parameters.zeroPoint < -128 ∨ parameters.zeroPoint > 127)
      (.invalid_argument "8-bit zero point is outside [-128, 127]")
  | .Q4 =>
    throwIf (parameters.zeroPoint < -8 ∨ parameters.zeroPoint > 7)
      (.invalid_argument "Q4 zero point is outside [-8, 7]")

def quantized (parameters : QuantizationParameters K) (value : K) : Int8 :=
  Int8.ofInt (clamp (roundAway (value / parameters.scale)) (-127) 127)

/-- `static_cast<float>(quantized - parameters.zeroPoint) * parameters.scale` -/
def reconstructed (parameters : QuantizationParameters K) (quantized : Int8) : K :=
  ((quantized.toInt - parameters.zeroPoint.toInt : Int) : K) * parameters.scale

def quantizeInt8 (values : List (Extended K)) : Except StdError (Int8QuantizationResult K) := do
  throwIf (values = []) (.invalid_argument "INT8 quantization source cannot be empty")
  let values ← Extended.finites
    (.invalid_argument "INT8 quantization source must contain finite values") values
  let maximumMagnitude := largest (fun value => |value|) values
  let parameters : QuantizationParameters K := {
    scale := if maximumMagnitude = 0 then 1 else maximumMagnitude / 127
    zeroPoint := 0 }
  validateParameters .INT8 parameters
  return {
    bytes := values.map fun value => (quantized parameters value).toUInt8
    parameters
    maximumAbsoluteError := largest (fun value =>
      |value - reconstructed parameters (quantized parameters value)|) values }

def dequantizeInt8 (values : List UInt8) (parameters : QuantizationParameters K) :
    Except StdError (List K) := do
  throwIf (values = []) (.invalid_argument "INT8 dequantization source cannot be empty")
  validateParameters .INT8 parameters
  return values.map fun byte => reconstructed parameters byte.toInt8

/-! ## one value -/

variable [IsStrictOrderedRing K]

/-- the value in units of the scale -/
def code (scale value : K) : Int := roundAway (value / scale)

section
variable {scale value : K}

theorem code_bounds (hscale : 0 < scale) (h : |value| ≤ 127 * scale) :
    -127 ≤ code scale value ∧ code scale value ≤ 127 := by
  have hunits : |value / scale| ≤ ((127 : Int) : K) := by
    rw [abs_div, abs_of_pos hscale, div_le_iff₀ hscale]
    exact_mod_cast h
  exact roundAway_bounds hunits

theorem quantized_toInt (hscale : 0 < scale) (h : |value| ≤ 127 * scale) :
    (quantized ⟨scale, 0⟩ value).toInt = code scale value := by
  obtain ⟨hlower, hupper⟩ := code_bounds hscale h
  rw [quantized, Int8.toInt_ofInt_of_le]
  · exact clamp_of_mem hlower hupper
  · show -128 ≤ clamp (code scale value) (-127) 127
    rw [clamp_of_mem hlower hupper]
    omega
  · show clamp (code scale value) (-127) 127 < 128
    rw [clamp_of_mem hlower hupper]
    omega

theorem reconstructed_quantized (hscale : 0 < scale) (h : |value| ≤ 127 * scale) :
    reconstructed ⟨scale, 0⟩ (quantized ⟨scale, 0⟩ value) = code scale value * scale := by
  rw [reconstructed, quantized_toInt hscale h]
  show ((code scale value - 0 : Int) : K) * scale = _
  rw [sub_zero]

theorem code_near (hscale : 0 < scale) : |value - code scale value * scale| ≤ scale / 2 := by
  have h := roundAway_near (value / scale)
  have e : value - code scale value * scale = (value / scale - code scale value) * scale := by
    rw [sub_mul, div_mul_cancel₀ _ hscale.ne']
  rw [e, abs_mul, abs_of_pos hscale]
  calc |value / scale - code scale value| * scale
      ≤ 1 / 2 * scale := mul_le_mul_of_nonneg_right h hscale.le
    _ = scale / 2 := by ring

theorem code_mul (hscale : 0 < scale) (i : Int) : code scale (i * scale) = i := by
  rw [code, mul_div_cancel_right₀ _ hscale.ne', roundAway_intCast]

end

/-! ## the scale -/

def magnitude (values : List K) : K := largest (fun value => |value|) values

def unit (values : List K) : K := if magnitude values = 0 then 1 else magnitude values / 127

section
variable {values : List K}

omit [FloorRing K] [IsStrictOrderedRing K] in
theorem magnitude_nonneg (values : List K) : 0 ≤ magnitude values :=
  (largest_foldl _ values 0).1

omit [FloorRing K] in
theorem unit_pos (values : List K) : 0 < unit values := by
  rw [unit]
  split
  · exact one_pos
  · next hne =>
    have hpos := (magnitude_nonneg values).lt_of_ne (Ne.symm hne)
    linarith

omit [FloorRing K] in
theorem abs_le_unit {value : K} (h : value ∈ values) : |value| ≤ 127 * unit values := by
  have hle : |value| ≤ magnitude values := le_largest h
  rw [unit]
  split
  · next hzero =>
    rw [hzero] at hle
    linarith
  · linarith

/-- a value of the greatest magnitude, in units of the scale -/
theorem code_extreme {value : K} (h : |value| = magnitude values) :
    (value = 0 ∧ code (unit values) value = 0) ∨
      (0 < value ∧ code (unit values) value = 127 ∧ value = 127 * unit values) ∨
      (value < 0 ∧ code (unit values) value = -127 ∧ value = -127 * unit values) := by
  have hunit : magnitude values ≠ 0 → 127 * unit values = |value| := by
    intro hne
    rw [unit, if_neg hne, h, mul_div_cancel₀]
    norm_num
  rcases lt_trichotomy value 0 with hneg | rfl | hpos
  · have e : value = ((-127 : Int) : K) * unit values := by
      have := hunit (h ▸ (abs_pos.mpr hneg.ne).ne')
      rw [abs_of_neg hneg] at this
      push_cast
      linarith
    refine Or.inr (Or.inr ⟨hneg, ?_, by exact_mod_cast e⟩)
    rw [e, code_mul (unit_pos values)]
  · refine Or.inl ⟨rfl, ?_⟩
    have hcode := code_mul (unit_pos values) 0
    rwa [Int.cast_zero, zero_mul] at hcode
  · have e : value = ((127 : Int) : K) * unit values := by
      have := hunit (h ▸ (abs_pos.mpr hpos.ne').ne')
      rw [abs_of_pos hpos] at this
      push_cast
      linarith
    refine Or.inr (Or.inl ⟨hpos, ?_, by exact_mod_cast e⟩)
    rw [e, code_mul (unit_pos values)]

theorem restored_extreme {value : K} (h : |value| = magnitude values) :
    (code (unit values) value : K) * unit values = value := by
  rcases code_extreme h with ⟨rfl, hcode⟩ | ⟨_, hcode, e⟩ | ⟨_, hcode, e⟩
  · rw [hcode, Int.cast_zero, zero_mul]
  · rw [hcode]
    exact_mod_cast e.symm
  · rw [hcode]
    exact_mod_cast e.symm

/-- what the bytes stand for has the same greatest magnitude -/
theorem magnitude_restored (hne : values ≠ []) :
    magnitude (values.map fun value => code (unit values) value * unit values) =
      magnitude values := by
  obtain ⟨value, hvalue, hextreme⟩ := exists_largest (f := fun value : K => |value|) abs_nonneg hne
  refine largest_eq abs_nonneg (fun restored h => ?_) ⟨_, List.mem_map.mpr ⟨value, hvalue, rfl⟩, ?_⟩
  · obtain ⟨other, hother, rfl⟩ := List.mem_map.mp h
    show |(code (unit values) other : K) * unit values| ≤ _
    by_cases hzero : magnitude values = 0
    · have hle : |other| ≤ magnitude values := le_largest hother
      rw [restored_extreme (le_antisymm hle (hzero ▸ abs_nonneg other))]
      exact hle
    · obtain ⟨hlower, hupper⟩ := code_bounds (unit_pos values) (abs_le_unit hother)
      have hcode : |(code (unit values) other : K)| ≤ 127 :=
        abs_le.mpr ⟨by exact_mod_cast hlower, by exact_mod_cast hupper⟩
      rw [abs_mul, abs_of_pos (unit_pos values)]
      calc |(code (unit values) other : K)| * unit values
          ≤ 127 * unit values := mul_le_mul_of_nonneg_right hcode (unit_pos values).le
        _ = magnitude values := by
          rw [unit, if_neg hzero, mul_div_cancel₀]
          norm_num
  · show |(code (unit values) value : K) * unit values| = _
    rw [restored_extreme hextreme]
    exact hextreme

end

/-! ## the values -/

section
variable {values : List K}

/-- what the bytes stand for -/
def restore (values : List K) : List K :=
  values.map fun value => code (unit values) value * unit values

/-- what `quantizeInt8` answers -/
def quantization (values : List K) : Int8QuantizationResult K where
  bytes := values.map fun value => (quantized ⟨unit values, 0⟩ value).toUInt8
  parameters := ⟨unit values, 0⟩
  maximumAbsoluteError :=
    largest (fun value => |value - reconstructed ⟨unit values, 0⟩ (quantized ⟨unit values, 0⟩ value)|) values

omit [FloorRing K] in
theorem validateParameters_unit (values : List K) :
    validateParameters .INT8 (⟨unit values, 0⟩ : QuantizationParameters K) = .ok () := by
  rw [validateParameters, throwIf_bind_of_not (not_le.mpr (unit_pos values))]
  exact if_neg (show ¬ ((0 : Int32) < -128 ∨ (0 : Int32) > 127) by decide)

theorem quantizeInt8_eq (hne : values ≠ []) :
    quantizeInt8 (values.map .finite) = .ok (quantization values) := by
  have hmap : values.map Extended.finite ≠ [] := fun h => hne (List.map_eq_nil_iff.mp h)
  rw [quantizeInt8, throwIf_bind_of_not hmap, Extended.finites_finite]
  show (validateParameters .INT8 ⟨unit values, 0⟩ >>= _) = _
  rw [validateParameters_unit]
  rfl

theorem dequantizeInt8_eq (hne : values ≠ []) :
    dequantizeInt8 (quantization values).bytes (quantization values).parameters =
      .ok (restore values) := by
  have hbytes : (quantization values).bytes ≠ [] := fun h => hne (List.map_eq_nil_iff.mp h)
  rw [dequantizeInt8, throwIf_bind_of_not hbytes]
  show (validateParameters .INT8 ⟨unit values, 0⟩ >>= _) = _
  rw [validateParameters_unit]
  refine congrArg Except.ok ?_
  rw [quantization, List.map_map, restore]
  refine List.map_congr_left fun value h => ?_
  exact reconstructed_quantized (unit_pos values) (abs_le_unit h)

theorem quantization_error (values : List K) :
    (quantization values).maximumAbsoluteError =
      largest (fun value => |value - code (unit values) value * unit values|) values := by
  refine List.foldl_ext _ _ _ fun m value h => ?_
  show max m |value - reconstructed ⟨unit values, 0⟩ (quantized ⟨unit values, 0⟩ value)| = _
  rw [reconstructed_quantized (unit_pos values) (abs_le_unit h)]

theorem requantize (hne : values ≠ []) :
    quantization (restore values) = { quantization values with maximumAbsoluteError := 0 } := by
  have hunit : unit (restore values) = unit values := by
    rw [unit, restore, magnitude_restored hne]
    rfl
  have hcode : ∀ value, code (unit values) (code (unit values) value * unit values) =
      code (unit values) value := fun value => code_mul (unit_pos values) _
  have hbytes : (quantization (restore values)).bytes = (quantization values).bytes := by
    rw [quantization, quantization, hunit, restore, List.map_map]
    refine List.map_congr_left fun value _ => congrArg Int8.toUInt8 ?_
    exact congrArg (fun i => Int8.ofInt (clamp i (-127) 127)) (hcode value)
  have herror : (quantization (restore values)).maximumAbsoluteError = 0 := by
    rw [quantization_error, hunit]
    have hnil : restore values ≠ [] := fun h => hne (List.map_eq_nil_iff.mp h)
    have hzero : ∀ restored ∈ restore values,
        |restored - code (unit values) restored * unit values| = 0 := by
      intro restored h
      obtain ⟨value, _, rfl⟩ := List.mem_map.mp h
      rw [hcode, sub_self, abs_zero]
    refine largest_eq (fun _ => abs_nonneg _) (fun restored h => (hzero restored h).le) ?_
    obtain ⟨restored, h⟩ := List.exists_mem_of_ne_nil _ hnil
    exact ⟨restored, h, hzero restored h⟩
  have hparameters : (quantization (restore values)).parameters =
      (quantization values).parameters := by
    show (⟨unit (restore values), 0⟩ : QuantizationParameters K) = ⟨unit values, 0⟩
    rw [hunit]
  show (⟨_, _, _⟩ : Int8QuantizationResult K) = ⟨_, _, _⟩
  rw [Int8QuantizationResult.mk.injEq]
  exact ⟨hbytes, hparameters, herror⟩

theorem code_eq {value : K} (h : value ∈ values) :
    (quantized ⟨unit values, 0⟩ value).toUInt8.toInt8.toInt = code (unit values) value := by
  rw [Int8.toInt8_toUInt8]
  exact quantized_toInt (unit_pos values) (abs_le_unit h)

/-- the elements of a list, with those of its image -/
theorem mem_zip_map {α β : Type} {f : α → β} {l : List α} {p : α × β} (h : p ∈ l.zip (l.map f)) :
    p.1 ∈ l ∧ p.2 = f p.1 := by
  rw [← List.map_prod_left_eq_zip] at h
  obtain ⟨a, ha, rfl⟩ := List.mem_map.mp h
  exact ⟨ha, rfl⟩

end

theorem quantizeInt8_restores (values : List K) (hne : values ≠ []) :
    ∃ q restored, quantizeInt8 (values.map .finite) = .ok q ∧
      dequantizeInt8 q.bytes q.parameters = .ok restored ∧
      0 < q.parameters.scale ∧ q.parameters.zeroPoint = 0 ∧
      q.bytes.length = values.length ∧ restored.length = values.length ∧
      (∀ byte ∈ q.bytes, -127 ≤ byte.toInt8.toInt ∧ byte.toInt8.toInt ≤ 127) ∧
      (∀ p ∈ values.zip restored, |p.1 - p.2| ≤ q.parameters.scale / 2) ∧
      IsGreatest {d | ∃ p ∈ values.zip restored, d = |p.1 - p.2|} q.maximumAbsoluteError ∧
      (∀ p ∈ values.zip q.bytes, (∀ value ∈ values, |value| ≤ |p.1|) →
        p.2.toInt8.toInt = if 0 < p.1 then 127 else if p.1 < 0 then -127 else 0) ∧
      quantizeInt8 (restored.map .finite) = .ok { q with maximumAbsoluteError := 0 } := by
  have hpos := unit_pos values
  have hrestored : restore values ≠ [] := fun h => hne (List.map_eq_nil_iff.mp h)
  refine ⟨quantization values, restore values, quantizeInt8_eq hne, dequantizeInt8_eq hne, hpos,
    rfl, List.length_map _, List.length_map _, ?_, ?_, ?_, ?_, ?_⟩
  · intro byte hbyte
    obtain ⟨value, hvalue, rfl⟩ := List.mem_map.mp hbyte
    rw [code_eq hvalue]
    exact code_bounds hpos (abs_le_unit hvalue)
  · intro p hp
    rw [(mem_zip_map hp).2]
    exact code_near hpos
  · have hdifferences : {d | ∃ p ∈ values.zip (restore values), d = |p.1 - p.2|} =
        {d | ∃ value ∈ values, |value - code (unit values) value * unit values| = d} := by
      ext d
      constructor
      · rintro ⟨p, hp, rfl⟩
        obtain ⟨hmem, he⟩ := mem_zip_map hp
        exact ⟨p.1, hmem, by rw [he]⟩
      · rintro ⟨value, hvalue, rfl⟩
        refine ⟨(value, code (unit values) value * unit values), ?_, rfl⟩
        rw [restore, ← List.map_prod_left_eq_zip]
        exact List.mem_map_of_mem hvalue
    rw [hdifferences, quantization_error]
    refine ⟨exists_largest (fun _ => abs_nonneg _) hne, ?_⟩
    rintro d ⟨value, hvalue, rfl⟩
    exact le_largest (f := fun value => |value - code (unit values) value * unit values|) hvalue
  · intro p hp hgreatest
    obtain ⟨hmem, he⟩ := mem_zip_map hp
    have hextreme : |p.1| = magnitude values :=
      (largest_eq abs_nonneg hgreatest ⟨p.1, hmem, rfl⟩).symm
    rw [he, code_eq hmem]
    rcases code_extreme hextreme with ⟨hzero, hcode⟩ | ⟨hpositive, hcode, _⟩ | ⟨hnegative, hcode, _⟩
    · rw [hcode, hzero, if_neg (lt_irrefl 0), if_neg (lt_irrefl 0)]
    · rw [hcode, if_pos hpositive]
    · rw [hcode, if_neg hnegative.not_gt, if_pos hnegative]
  · rw [quantizeInt8_eq hrestored, requantize hne]

theorem quantizeInt8_restores_sample :
    ∃ q restored, quantizeInt8 ([-2, -1 / 4, 0, 3 / 4, 2].map Extended.finite) = .ok q ∧
      dequantizeInt8 q.bytes q.parameters = .ok restored ∧
      q.bytes.map (fun byte => byte.toInt8.toInt) = [-127, -16, 0, 48, 127] ∧
      quantizeInt8 (restored.map .finite) = .ok { q with maximumAbsoluteError := (0 : ℚ) } := by
  obtain ⟨q, restored, hq, hrestored, _, _, _, _, _, _, _, _, hagain⟩ :=
    quantizeInt8_restores ([-2, -1 / 4, 0, 3 / 4, 2] : List ℚ) (List.cons_ne_nil _ _)
  refine ⟨q, restored, hq, hrestored, ?_, hagain⟩
  have hbytes : (quantizeInt8 ([-2, -1 / 4, 0, 3 / 4, 2].map (Extended.finite (K := ℚ)))).map
      (fun q => q.bytes.map fun byte => byte.toInt8.toInt) = .ok [-127, -16, 0, 48, 127] := by
    decide +kernel
  rw [hq] at hbytes
  exact Except.ok.inj hbytes

/-- a zero has the greatest magnitude of zeros, and neither of the codes -/
theorem zeros_have_no_extreme :
    ∃ q : Int8QuantizationResult ℚ, quantizeInt8 [.finite 0] = .ok q ∧
      (∀ value ∈ ([0] : List ℚ), |value| ≤ |0|) ∧
      ∀ byte ∈ q.bytes, byte.toInt8.toInt ≠ 127 ∧ byte.toInt8.toInt ≠ -127 := by
  refine ⟨⟨[0], ⟨1, 0⟩, 0⟩, by decide +kernel, by decide +kernel, by decide +kernel⟩

end HyperMoE.Tensor.Quantization
