import Mathlib.Algebra.GroupWithZero.Nat
import HyperMoE.Lib.Watched

/-!
# Shapes

`Shape.cpp`: the dimensions and the strides of a tensor, with the number of its elements and of the
elements that its storage spans.

* `Extents`                 the four fields;
* `contiguous`, `strided`   the constructors;
* `Shape`                   extents that a constructor has made;
* `size`, `span`            the elements, and one more than the largest offset, over exact integers;
* `Shape.counts`            what a shape promises: exact counts, no dimension that is zero.
-/

namespace HyperMoE.Tensor

open Lib Lib.Fallible

/-- the exceptions of the standard library -/
inductive StdError where
  | invalid_argument (what : String)
  | overflow_error (what : String)
  | out_of_range (what : String)
  | logic_error (what : String)
  | runtime_error (what : String)
  deriving DecidableEq, Repr

structure Extents where
  dimensions : List UInt64 := []
  strides : List UInt64 := []
  elementCount : UInt64 := 1
  storageElementCount : UInt64 := 1
  deriving DecidableEq, Repr

abbrev Code := Watched StdError

def validateAndCount (dimensions : List UInt64) : Code UInt64 :=
  Watched.product (.invalid_argument "tensor dimensions must be nonzero")
    (.overflow_error "tensor element count overflow") 1 dimensions

/-- the strides from the last dimension on, and the stride of one more dimension -/
def makeContiguousStrides : List UInt64 → Code (List UInt64 × UInt64)
  | [] => pure ([], 1)
  | dimension :: dimensions => do
    let (strides, stride) ← makeContiguousStrides dimensions
    let next ← Watched.mul stride dimension
    return (stride :: strides, next)

/-- `Shape(dimensions)` -/
def contiguous (dimensions : List UInt64) : Code Extents := do
  let elementCount ← validateAndCount dimensions
  let (strides, _) ← makeContiguousStrides dimensions
  return ⟨dimensions, strides, elementCount, elementCount⟩

/-- `for (index ...) storageElementCount_ += (dimensions_[index] - 1) * strides_[index];` -/
def addSpans (storageElementCount : UInt64) : List (UInt64 × UInt64) → Code UInt64
  | [] => pure storageElementCount
  | (dimension, stride) :: axes => do
    let distance ← Watched.sub dimension 1
    throwIf (distance ≠ 0 ∧ stride > (maxWord - storageElementCount) / distance)
      (.overflow_error "strided tensor storage span overflow")
    let span ← Watched.mul distance stride
    let storageElementCount ← Watched.add storageElementCount span
    addSpans storageElementCount axes

/-- `Shape(dimensions, strides)` -/
def strided (dimensions strides : List UInt64) : Code Extents := do
  let elementCount ← validateAndCount dimensions
  throwIf (strides.length ≠ dimensions.length)
    (.invalid_argument "shape dimensions and strides must have equal rank")
  throwIf ((0 : UInt64) ∈ strides ∧ elementCount > 1)
    (.invalid_argument "non-scalar tensor strides must be nonzero")
  let storageElementCount ← addSpans 1 (dimensions.zip strides)
  return ⟨dimensions, strides, elementCount, storageElementCount⟩

/-- what a constructor has answered -/
structure Shape extends Extents where
  built : ((contiguous dimensions).exec true).1 = .ok toExtents ∨
    ((strided dimensions strides).exec true).1 = .ok toExtents

namespace Shape

instance : DecidableEq Shape := fun s t =>
  decidable_of_iff (s.toExtents = t.toExtents) <| by
    obtain ⟨e, he⟩ := s
    obtain ⟨e', he'⟩ := t
    exact ⟨fun h => by obtain rfl : e = e' := h; rfl, fun h => congrArg Shape.toExtents h⟩

/-- whether the strides are the expected ones, and the stride that comes before them -/
def contiguousFrom : List (UInt64 × UInt64) → Bool × UInt64
  | [] => (true, 1)
  | (dimension, stride) :: axes =>
    let (same, expected) := contiguousFrom axes
    (same && stride = expected, expected * dimension)

def isContiguous (s : Shape) : Bool := (contiguousFrom (s.dimensions.zip s.strides)).1

/-- `Shape()` -/
def scalar : Shape := ⟨{}, .inl rfl⟩

def rank (s : Shape) : Nat := s.dimensions.length

end Shape

/-! ## what the constructors promise -/

def size (dimensions : List UInt64) : Nat := (dimensions.map UInt64.toNat).prod

/-- one more than the largest offset -/
def span (axes : List (UInt64 × UInt64)) : Nat :=
  1 + (axes.map fun axis => (axis.1.toNat - 1) * axis.2.toNat).sum

structure Extents.Counts (e : Extents) : Prop where
  nonzero : ∀ d ∈ e.dimensions, d ≠ 0
  rank : e.strides.length = e.dimensions.length
  elementCount : e.elementCount.toNat = size e.dimensions
  storageElementCount : e.storageElementCount.toNat = span (e.dimensions.zip e.strides)

variable {exact : Bool}

theorem size_cons (d : UInt64) (dimensions : List UInt64) :
    size (d :: dimensions) = d.toNat * size dimensions := by
  simp [size]

theorem span_cons (d s : UInt64) (axes : List (UInt64 × UInt64)) :
    span ((d, s) :: axes) = (d.toNat - 1) * s.toNat + span axes := by
  simp only [span, List.map_cons, List.sum_cons]
  omega

theorem toNat_pos {d : UInt64} (h : d ≠ 0) : 1 ≤ d.toNat :=
  Nat.pos_of_ne_zero fun h0 => h (UInt64.toNat_inj.mp h0)

/-- a row of elements more -/
theorem span_step {d n : Nat} (hd : 1 ≤ d) : (d - 1) * n + n = d * n := by
  rw [← Nat.succ_mul]
  congr 1
  omega

theorem wp_validateAndCount {dimensions : List UInt64} {Q : Except StdError UInt64 → Bool → Prop}
    (hok : ∀ c : UInt64, c.toNat = size dimensions → (∀ d ∈ dimensions, d ≠ 0) → Q (.ok c) exact)
    (herror : ∀ e, Q (.error e) exact) : wp (validateAndCount dimensions) Q exact := by
  refine Watched.wp_product dimensions 1 (fun c hc hne => hok c ?_ hne) (herror _) (herror _)
  rw [hc]
  exact Nat.one_mul _

theorem wp_makeContiguousStrides {dimensions : List UInt64} (hne : ∀ d ∈ dimensions, d ≠ 0)
    (hlt : size dimensions < 2 ^ 64) : wp (makeContiguousStrides dimensions)
      (fun r exact' => exact' = exact ∧ ∃ strides stride, r = .ok (strides, stride) ∧
        strides.length = dimensions.length ∧ stride.toNat = size dimensions ∧
        span (dimensions.zip strides) = size dimensions) exact := by
  induction dimensions with
  | nil => exact ⟨rfl, [], 1, rfl, rfl, rfl, rfl⟩
  | cons d dimensions ih =>
    have hd := toNat_pos (hne d List.mem_cons_self)
    rw [size_cons] at hlt
    have hlt' : size dimensions < 2 ^ 64 := Nat.lt_of_le_of_lt (Nat.le_mul_of_pos_left _ hd) hlt
    refine wp_seq (ih (fun d' hd' => hne d' (List.mem_cons_of_mem _ hd')) hlt') (fun r exact' h => ?_)
      fun e exact' h => ?_
    · obtain ⟨rfl, strides, stride, hr, hlen, hstride, hspan⟩ := h
      obtain rfl := Except.ok.inj hr
      show wp (Watched.mul stride d >>= _) _ _
      rw [wp_bind]
      refine Watched.wp_mul (by rw [hstride, Nat.mul_comm]; exact hlt) fun next hnext => ?_
      refine ⟨rfl, stride :: strides, next, rfl, congrArg (· + 1) hlen, ?_, ?_⟩
      · rw [hnext, hstride, size_cons, Nat.mul_comm]
      · rw [List.zip_cons_cons, span_cons, hstride, hspan, size_cons]
        exact span_step hd
    · obtain ⟨-, strides, stride, hr, -⟩ := h
      exact nomatch hr

theorem wp_contiguous (dimensions : List UInt64) (exact : Bool) : wp (contiguous dimensions)
    (fun r exact' => exact' = exact ∧ match r with
      | .ok e => e.dimensions = dimensions ∧ e.storageElementCount = e.elementCount ∧ e.Counts
      | .error _ => True) exact := by
  refine wp_seq (R := fun r exact' => exact' = exact ∧ match r with
    | .ok c => c.toNat = size dimensions ∧ ∀ d ∈ dimensions, d ≠ 0
    | .error _ => True) ?_ (fun c exact' h => ?_) fun e exact' h => h
  · exact wp_validateAndCount (fun c hc hne => ⟨rfl, hc, hne⟩) fun e => ⟨rfl, trivial⟩
  · obtain ⟨rfl, hc, hne⟩ := h
    have hlt : size dimensions < 2 ^ 64 := hc ▸ UInt64.toNat_lt c
    refine wp_seq (wp_makeContiguousStrides hne hlt) (fun r exact'' h => ?_) fun e exact'' h => ?_
    · obtain ⟨rfl, strides, stride, hr, hlen, -, hspan⟩ := h
      obtain rfl := Except.ok.inj hr
      exact ⟨rfl, rfl, rfl, hne, hlen, hc, hc.trans hspan.symm⟩
    · obtain ⟨-, strides, stride, hr, -⟩ := h
      exact nomatch hr

theorem wp_addSpans {axes : List (UInt64 × UInt64)} (hne : ∀ axis ∈ axes, axis.1 ≠ 0) (storage : UInt64) :
    wp (addSpans storage axes) (fun r exact' => exact' = exact ∧ match r with
      | .ok c => c.toNat + 1 = storage.toNat + span axes
      | .error _ => True) exact := by
  induction axes generalizing storage with
  | nil => exact ⟨rfl, rfl⟩
  | cons axis axes ih =>
    obtain ⟨d, s⟩ := axis
    have hd : (1 : UInt64) ≤ d :=
      UInt64.le_iff_toNat_le.mpr (toNat_pos (hne (d, s) List.mem_cons_self))
    show wp (_ >>= _) _ _
    rw [wp_bind]
    refine Watched.wp_sub hd fun distance hdistance => ?_
    show wp (_ >>= _) _ _
    rw [wp_bind, wp_throwIf]
    split
    · exact ⟨rfl, trivial⟩
    next hguard =>
    have hfits : distance.toNat * s.toNat + storage.toNat < 2 ^ 64 := by
      have hstorage := UInt64.toNat_lt storage
      by_cases h0 : distance = 0
      · rw [h0, UInt64.toNat_zero, Nat.zero_mul, Nat.zero_add]
        exact hstorage
      · have hle := UInt64.not_lt.mp fun h => hguard ⟨h0, h⟩
        have hmax : storage ≤ maxWord := UInt64.le_iff_toNat_le.mpr (by rw [Watched.toNat_maxWord]; omega)
        rw [UInt64.le_iff_toNat_le, UInt64.toNat_div, UInt64.toNat_sub_of_le _ _ hmax,
          Watched.toNat_maxWord,
          Nat.le_div_iff_mul_le (toNat_pos h0), Nat.mul_comm] at hle
        omega
    show wp (_ >>= _) _ _
    rw [wp_bind]
    refine Watched.wp_mul (by omega) fun spanned hspanned => ?_
    show wp (_ >>= _) _ _
    rw [wp_bind]
    refine Watched.wp_add (by omega) fun storage' hstorage' => ?_
    refine wp_mono (ih (fun axis' h => hne axis' (List.mem_cons_of_mem _ h)) storage') fun r exact' h => ?_
    refine ⟨h.1, ?_⟩
    cases r with
    | error e => trivial
    | ok c =>
      show c.toNat + 1 = storage.toNat + span ((d, s) :: axes)
      have hc : c.toNat + 1 = storage'.toNat + span axes := h.2
      have h1 : (1 : UInt64).toNat = 1 := rfl
      rw [span_cons, hc, hstorage', hspanned, hdistance, h1]
      omega

theorem wp_strided (dimensions strides : List UInt64) (exact : Bool) : wp (strided dimensions strides)
    (fun r exact' => exact' = exact ∧ match r with
      | .ok e => e.dimensions = dimensions ∧ e.strides = strides ∧ e.Counts
      | .error _ => True) exact := by
  refine wp_seq (R := fun r exact' => exact' = exact ∧ match r with
    | .ok c => c.toNat = size dimensions ∧ ∀ d ∈ dimensions, d ≠ 0
    | .error _ => True) ?_ (fun c exact' h => ?_) fun e exact' h => h
  · exact wp_validateAndCount (fun c hc hne => ⟨rfl, hc, hne⟩) fun e => ⟨rfl, trivial⟩
  · obtain ⟨rfl, hc, hne⟩ := h
    show wp (_ >>= _) _ _
    rw [wp_bind, wp_throwIf]
    split
    · exact ⟨rfl, trivial⟩
    next hrank =>
    show wp (_ >>= _) _ _
    rw [wp_bind, wp_throwIf]
    split
    · exact ⟨rfl, trivial⟩
    refine wp_seq (wp_addSpans (fun axis h => hne axis.1 (List.of_mem_zip h).1) 1)
      (fun storage exact'' h => ?_) fun e exact'' h => h
    refine ⟨h.1, rfl, rfl, hne, not_not.mp hrank, hc, ?_⟩
    have hs : storage.toNat + 1 = (1 : UInt64).toNat + span (dimensions.zip strides) := h.2
    have h1 : (1 : UInt64).toNat = 1 := rfl
    show storage.toNat = span (dimensions.zip strides)
    omega

namespace Shape

theorem counts (s : Shape) : s.Counts := by
  rcases s.built with h | h
  · have hw := (wp_contiguous s.dimensions true).2
    rw [h] at hw
    exact hw.2.2
  · have hw := (wp_strided s.dimensions s.strides true).2
    rw [h] at hw
    exact hw.2.2

theorem contiguousFrom_spec {axes : List (UInt64 × UInt64)} (h : (contiguousFrom axes).1 = true)
    (hne : ∀ axis ∈ axes, axis.1 ≠ 0) (hlt : size (axes.map Prod.fst) < 2 ^ 64) :
    (contiguousFrom axes).2.toNat = size (axes.map Prod.fst) ∧
      span axes = size (axes.map Prod.fst) := by
  induction axes with
  | nil => exact ⟨rfl, rfl⟩
  | cons axis axes ih =>
    obtain ⟨d, s⟩ := axis
    have hd := toNat_pos (hne (d, s) List.mem_cons_self)
    rw [List.map_cons, size_cons] at hlt
    have hlt' : size (axes.map Prod.fst) < 2 ^ 64 :=
      Nat.lt_of_le_of_lt (Nat.le_mul_of_pos_left _ hd) hlt
    have h' : ((contiguousFrom axes).1 && decide (s = (contiguousFrom axes).2)) = true := h
    rw [Bool.and_eq_true, decide_eq_true_eq] at h'
    obtain ⟨hnext, hspan⟩ := ih h'.1 (fun axis hm => hne axis (List.mem_cons_of_mem _ hm)) hlt'
    refine ⟨?_, ?_⟩
    · show ((contiguousFrom axes).2 * d).toNat = _
      rw [UInt64.toNat_mul, hnext, List.map_cons, size_cons, Nat.mul_comm, Nat.mod_eq_of_lt hlt]
    · rw [span_cons, h'.2, hnext, hspan, List.map_cons, size_cons]
      exact span_step hd

/-- the storage of a contiguous shape is its elements -/
theorem storageElementCount_of_contiguous (s : Shape) (h : s.isContiguous = true) :
    s.storageElementCount.toNat = size s.dimensions := by
  have hcounts := s.counts
  have hfst : (s.dimensions.zip s.strides).map Prod.fst = s.dimensions :=
    List.map_fst_zip (Nat.le_of_eq hcounts.rank.symm)
  have hlt : size s.dimensions < 2 ^ 64 := hcounts.elementCount ▸ UInt64.toNat_lt s.elementCount
  have hspec := contiguousFrom_spec h (fun axis hm => hcounts.nonzero _ (List.of_mem_zip hm).1)
    (by rw [hfst]; exact hlt)
  rw [hcounts.storageElementCount, hspec.2, hfst]

/-- `Shape(dimensions)` -/
def ofDimensions (dimensions : List UInt64) : Code Shape := do
  let e ← Watched.attach (contiguous dimensions)
  return ⟨e.1, .inl <| by
    have hw := (wp_contiguous dimensions true).2
    rw [e.2] at hw
    rw [hw.1]
    exact e.2⟩

theorem wp_ofDimensions {dimensions : List UInt64} {Q : Except StdError Shape → Bool → Prop}
    (hok : ∀ s : Shape, s.dimensions = dimensions → s.storageElementCount.toNat = size dimensions →
      Q (.ok s) exact) (herror : ∀ e, Q (.error e) exact) : wp (ofDimensions dimensions) Q exact := by
  show wp (Watched.attach (contiguous dimensions) >>= _) Q exact
  rw [wp_bind]
  refine Watched.wp_attach (wp_contiguous dimensions true) (fun e he h => ?_) fun e _ => herror e
  obtain ⟨hdimensions, hstorage, hcounts⟩ := h
  have hcount := (congrArg UInt64.toNat hstorage).trans hcounts.elementCount
  rw [hdimensions] at hcount
  exact hok _ hdimensions hcount

end Shape

end HyperMoE.Tensor
