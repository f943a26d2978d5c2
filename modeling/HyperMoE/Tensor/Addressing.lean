import HyperMoE.Tensor.Shape

/-!
# Addresses of elements

Where the element at a multi-index lies: every index is multiplied by the stride of its dimension.

* `InRange`, `address`     multi-indices, and the element of the storage that they name;
* `last`                   the multi-index with the largest address;
* `address_lt_span`, `address_last`   the span is one more than the largest address;
* `rowMajor`               the address in row-major order;
* `address_rowMajor`       contiguous strides address in row-major order;
* `returns_ofDimensions`   the strides that a constructor makes are contiguous.
-/

namespace HyperMoE.Tensor

open Lib Lib.Fallible

/-- one index below each dimension -/
def InRange (dimensions : List UInt64) (index : List Nat) : Prop :=
  List.Forall₂ (fun (d : UInt64) i => i < d.toNat) dimensions index

instance (dimensions : List UInt64) (index : List Nat) : Decidable (InRange dimensions index) :=
  inferInstanceAs (Decidable (List.Forall₂ _ dimensions index))

def address (strides : List UInt64) (index : List Nat) : Nat :=
  (strides.zipWith (fun s i => i * s.toNat) index).sum

def last (dimensions : List UInt64) : List Nat := dimensions.map fun d => d.toNat - 1

/-- the elements that come before, where the last index runs fastest -/
def rowMajor : List UInt64 → List Nat → Nat
  | _ :: dimensions, i :: index => i * size dimensions + rowMajor dimensions index
  | _, _ => 0

variable {d s : UInt64} {i : Nat} {dimensions strides : List UInt64} {index : List Nat}

/-! ## the largest address -/

@[simp] theorem inRange_cons :
    InRange (d :: dimensions) (i :: index) ↔ i < d.toNat ∧ InRange dimensions index :=
  List.forall₂_cons

@[simp] theorem address_cons :
    address (s :: strides) (i :: index) = i * s.toNat + address strides index := by
  simp only [address, List.zipWith_cons_cons, List.sum_cons]

theorem InRange.length (h : InRange dimensions index) : index.length = dimensions.length :=
  (List.Forall₂.length_eq h).symm

theorem address_lt_span (hrank : strides.length = dimensions.length) (h : InRange dimensions index) :
    address strides index < span (dimensions.zip strides) := by
  induction h generalizing strides with
  | nil =>
    obtain rfl := List.length_eq_zero_iff.mp hrank
    exact Nat.one_pos
  | @cons d i dimensions index hi _ ih =>
    obtain ⟨s, strides, rfl⟩ := List.exists_cons_of_length_eq_add_one hrank
    rw [address_cons, List.zip_cons_cons, span_cons]
    have hstep : i * s.toNat ≤ (d.toNat - 1) * s.toNat := Nat.mul_le_mul_right _ (by omega)
    have hrest := ih (Nat.succ.inj hrank)
    omega

theorem inRange_last (hne : ∀ d ∈ dimensions, d ≠ 0) : InRange dimensions (last dimensions) := by
  induction dimensions with
  | nil => exact .nil
  | cons d dimensions ih =>
    have hd := toNat_pos (hne d List.mem_cons_self)
    refine .cons ?_ (ih fun d' hd' => hne d' (List.mem_cons_of_mem _ hd'))
    show d.toNat - 1 < d.toNat
    omega

theorem address_last (hrank : strides.length = dimensions.length) :
    address strides (last dimensions) + 1 = span (dimensions.zip strides) := by
  induction dimensions generalizing strides with
  | nil =>
    obtain rfl := List.length_eq_zero_iff.mp hrank
    rfl
  | cons d dimensions ih =>
    obtain ⟨s, strides, rfl⟩ := List.exists_cons_of_length_eq_add_one hrank
    have hrest := ih (Nat.succ.inj hrank)
    show address (s :: strides) ((d.toNat - 1) :: last dimensions) + 1 = _
    rw [address_cons, List.zip_cons_cons, span_cons]
    omega

/-- what a shape promises about the addresses of its elements -/
structure Extents.Addresses (e : Extents) : Prop where
  below : ∀ index, InRange e.dimensions index → address e.strides index < e.storageElementCount.toNat
  attained : ∃ index, InRange e.dimensions index ∧
    address e.strides index + 1 = e.storageElementCount.toNat
  /-- the number of elements did not wrap -/
  elementCount : e.elementCount.toNat = size e.dimensions

theorem Extents.Counts.addresses {e : Extents} (h : e.Counts) : e.Addresses where
  below index hindex := by
    rw [h.storageElementCount]
    exact address_lt_span h.rank hindex
  attained := by
    refine ⟨last e.dimensions, inRange_last h.nonzero, ?_⟩
    rw [h.storageElementCount]
    exact address_last h.rank
  elementCount := h.elementCount

/-! ## row-major order -/

namespace Shape

/-- contiguous strides name the elements in row-major order -/
theorem contiguousFrom_rowMajor (hrank : strides.length = dimensions.length)
    (h : (contiguousFrom (dimensions.zip strides)).1 = true) (hne : ∀ d ∈ dimensions, d ≠ 0)
    (hlt : size dimensions < 2 ^ 64) (hindex : InRange dimensions index) :
    address strides index = rowMajor dimensions index := by
  induction hindex generalizing strides with
  | nil =>
    obtain rfl := List.length_eq_zero_iff.mp hrank
    rfl
  | @cons d i dimensions index hi _ ih =>
    obtain ⟨s, strides, rfl⟩ := List.exists_cons_of_length_eq_add_one hrank
    have hrank' := Nat.succ.inj hrank
    have hfst : (dimensions.zip strides).map Prod.fst = dimensions :=
      List.map_fst_zip (Nat.le_of_eq hrank'.symm)
    have hne' := fun d' hd' => hne d' (List.mem_cons_of_mem d hd')
    have hd := toNat_pos (hne d List.mem_cons_self)
    rw [size_cons] at hlt
    have hlt' : size dimensions < 2 ^ 64 := Nat.lt_of_le_of_lt (Nat.le_mul_of_pos_left _ hd) hlt
    have hhead : ((contiguousFrom (dimensions.zip strides)).1 &&
        decide (s = (contiguousFrom (dimensions.zip strides)).2)) = true := h
    rw [Bool.and_eq_true, decide_eq_true_eq] at hhead
    have hnext := (contiguousFrom_spec hhead.1 (fun axis hm => hne' _ (List.of_mem_zip hm).1)
      (by rw [hfst]; exact hlt')).1
    rw [hfst] at hnext
    show address (s :: strides) (i :: index) = i * size dimensions + rowMajor dimensions index
    rw [address_cons, hhead.2, hnext, ih hrank' hhead.1 hne' hlt']

theorem returns_makeContiguousStrides (dimensions : List UInt64) :
    Returns (makeContiguousStrides dimensions) fun answer =>
      contiguousFrom (dimensions.zip answer.1) = (true, answer.2) := by
  induction dimensions with
  | nil => exact Returns.pure rfl
  | cons d dimensions ih =>
    refine ih.bind fun answer hanswer => ?_
    have hmul : Returns (Watched.mul answer.2 d : Code UInt64) fun next => next = answer.2 * d :=
      fun _ _ h => (Except.ok.inj h).symm
    refine hmul.bind fun next hnext => Returns.pure ?_
    show ((contiguousFrom (dimensions.zip answer.1)).1 &&
      decide (answer.2 = (contiguousFrom (dimensions.zip answer.1)).2),
      (contiguousFrom (dimensions.zip answer.1)).2 * d) = (true, next)
    rw [hanswer, decide_eq_true rfl, hnext]
    rfl

/-- the shape of these dimensions is contiguous -/
theorem returns_ofDimensions (dimensions : List UInt64) : Returns (ofDimensions dimensions) fun s =>
    s.dimensions = dimensions ∧ s.isContiguous = true := by
  have hcontiguous : Returns (contiguous dimensions) fun e =>
      e.dimensions = dimensions ∧ (contiguousFrom (e.dimensions.zip e.strides)).1 = true :=
    Returns.then fun _ => (returns_makeContiguousStrides dimensions).bind fun answer hanswer =>
      Returns.pure ⟨rfl, congrArg Prod.fst hanswer⟩
  intro exact
  unfold ofDimensions
  rw [wp_bind]
  have hexact := wp_mono (wp_contiguous dimensions true) fun _ _ h => h.1
  refine Watched.wp_attach (wp_and hexact (hcontiguous true)) (fun e he h s hs => ?_)
    fun e _ a ha => nomatch ha
  obtain rfl := Except.ok.inj hs
  exact h e he

theorem address_rowMajor (shape : Shape) (h : shape.isContiguous = true)
    (hindex : InRange shape.dimensions index) :
    address shape.strides index = rowMajor shape.dimensions index := by
  have hcounts := shape.counts
  have hlt : size shape.dimensions < 2 ^ 64 :=
    hcounts.elementCount ▸ UInt64.toNat_lt shape.elementCount
  exact contiguousFrom_rowMajor hcounts.rank h hcounts.nonzero hlt hindex

end Shape

end HyperMoE.Tensor
