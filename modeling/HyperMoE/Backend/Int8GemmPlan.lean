import HyperMoE.Lib.Watched
import HyperMoE.Tensor.Shape

/-!
# Plans of the INT8 product

`Int8GemmPlan.cpp`: how many blocks a product of `rows` by `inner` and `inner` by `columns` is
launched with, into how many partitions `inner` is split, and the scratch that this takes.

* `planInt8Gemm`      the plan, in the words of the machine;
* `Planned`           what a cooperative plan is, as numbers;
* `wp_planInt8Gemm`   it is so, and no operation wrapped.
-/

namespace HyperMoE.Backend

open Lib Lib.Fallible Tensor

inductive Int8GemmMode where
  | Auto
  | Reference
  | Cooperative
  deriving DecidableEq, Repr

structure Int8GemmPlan where
  implementation : Int8GemmMode := .Reference
  partitions : UInt64 := 1
  blocks : UInt64 := 0
  scratchElements : UInt64 := 0
  deriving DecidableEq, Repr

def product (left right : UInt64) : Code UInt64 := do
  throwIf (right ≠ 0 ∧ left > maxWord / right) (.overflow_error "INT8 GEMM launch size overflow")
  Watched.mul left right

def divideUp (value divisor : UInt64) : Code UInt64 :=
  Watched.add (value / divisor) (if value % divisor ≠ 0 then 1 else 0)

def Int8GemmMode.implementation (mode : Int8GemmMode) (inner columns : UInt64) : Int8GemmMode :=
  if mode = .Auto then (if inner ≥ 256 ∧ columns ≥ 64 then .Cooperative else .Reference) else mode

/-- the branches of the plan; an enumeration here has no invalid mode -/
def sizes (rows inner columns elements : UInt64) (implementation : Int8GemmMode) :
    Code Int8GemmPlan :=
  if implementation = .Reference then do
    let blocks ← divideUp elements 256
    return { implementation, blocks }
  else do
    let divided ← divideUp inner 512
    let partitions := if divided < 8 then divided else 8
    let rowPartitions ← product rows partitions
    let columnTiles ← divideUp columns 32
    let blocks ← product rowPartitions columnTiles
    let scratchElements ← if partitions > 1 then product elements partitions else pure 0
    return { implementation, partitions, blocks, scratchElements }

def planInt8Gemm (rows inner columns : UInt64) (mode : Int8GemmMode) : Code Int8GemmPlan := do
  throwIf (rows = 0 ∨ inner = 0 ∨ columns = 0)
    (.invalid_argument "INT8 GEMM dimensions/mode are invalid")
  let elements ← product rows columns
  let _ ← product rows inner
  let _ ← product inner columns
  let result ← sizes rows inner columns elements (mode.implementation inner columns)
  throwIf (result.blocks > 0x7fffffff ∨ result.scratchElements > maxWord / 4)
    (.overflow_error "INT8 GEMM exceeds CUDA launch/address limits")
  return result

/-! ## as numbers -/

structure Planned (rows inner columns : Nat) (plan : Int8GemmPlan) : Prop where
  rows_pos : 0 < rows
  inner_pos : 0 < inner
  columns_pos : 0 < columns
  right_lt : inner * columns < 2 ^ 64
  partitions_pos : 0 < plan.partitions.toNat
  partitions_le : plan.partitions.toNat ≤ 8
  blocks : plan.blocks.toNat = rows * plan.partitions.toNat * ((columns + 31) / 32)
  blocks_lt : plan.blocks.toNat < 2 ^ 31
  scratch : plan.scratchElements.toNat =
    if plan.partitions.toNat > 1 then rows * columns * plan.partitions.toNat else 0

section
variable {exact : Bool} {a b : UInt64}

theorem wp_product {Q : Except StdError UInt64 → Bool → Prop}
    (hok : ∀ c : UInt64, c.toNat = a.toNat * b.toNat → a.toNat * b.toNat < 2 ^ 64 → Q (.ok c) exact)
    (herror : ∀ e, Q (.error e) exact) : wp (product a b) Q exact := by
  unfold product
  rw [wp_bind, wp_throwIf]
  split
  · exact herror _
  · next h =>
    have hlt : a.toNat * b.toNat < 2 ^ 64 := by
      by_cases hb : b = 0
      · rw [hb]
        exact Nat.two_pow_pos 64
      · exact Watched.exact_mul (UInt64.not_lt.mp fun hlt => h ⟨hb, hlt⟩) hb
    exact Watched.wp_mul hlt fun c hc => hok c hc hlt

theorem wp_divideUp {Q : Except StdError UInt64 → Bool → Prop} (hb : 1 < b.toNat)
    (hok : ∀ c : UInt64, c.toNat = (a.toNat + (b.toNat - 1)) / b.toNat → Q (.ok c) exact) :
    wp (divideUp a b) Q exact := by
  have hpos : 0 < b.toNat := Nat.zero_lt_of_lt hb
  have ha := UInt64.toNat_lt a
  have hquotient : a.toNat / b.toNat < 2 ^ 63 := by
    rw [Nat.div_lt_iff_lt_mul hpos]
    omega
  have hcarry : (if a % b ≠ 0 then (1 : UInt64) else 0).toNat =
      if a.toNat % b.toNat = 0 then 0 else 1 := by
    have hiff : a % b = 0 ↔ a.toNat % b.toNat = 0 := by
      rw [← UInt64.toNat_inj, UInt64.toNat_mod]
      rfl
    by_cases hzero : a % b = 0
    · rw [if_neg (not_not.mpr hzero), if_pos (hiff.mp hzero)]
      rfl
    · rw [if_pos hzero, if_neg fun h => hzero (hiff.mpr h)]
      rfl
  refine Watched.wp_add ?_ fun c hc => hok c ?_
  · rw [UInt64.toNat_div, hcarry]
    split
    · omega
    · omega
  · rw [hc, UInt64.toNat_div, hcarry]
    have hsplit := Nat.div_add_mod a.toNat b.toNat
    have hmod := Nat.mod_lt a.toNat hpos
    split
    · next hzero =>
      have he : a.toNat + (b.toNat - 1) = (b.toNat - 1) + b.toNat * (a.toNat / b.toNat) := by omega
      rw [he, Nat.add_mul_div_left _ _ hpos, Nat.div_eq_of_lt (Nat.sub_one_lt (Nat.ne_of_gt hpos))]
      omega
    · next hne =>
      have he : a.toNat + (b.toNat - 1) =
          (a.toNat % b.toNat - 1) + b.toNat * (a.toNat / b.toNat + 1) := by
        rw [Nat.mul_add]
        omega
      rw [he, Nat.add_mul_div_left _ _ hpos,
        Nat.div_eq_of_lt (Nat.lt_of_le_of_lt (Nat.sub_le _ _) hmod), Nat.zero_add]

theorem wp_sizes {rows inner columns elements : UInt64} {implementation : Int8GemmMode}
    (hrows : 0 < rows.toNat) (hinner : 0 < inner.toNat) (hcolumns : 0 < columns.toNat)
    (hright : inner.toNat * columns.toNat < 2 ^ 64)
    (helements : elements.toNat = rows.toNat * columns.toNat) :
    wp (sizes rows inner columns elements implementation) (fun r exact' => exact' = exact ∧
      ∀ plan, r = .ok plan → plan.implementation = implementation ∧
        (implementation = .Cooperative → plan.blocks.toNat < 2 ^ 31 →
          Planned rows.toNat inner.toNat columns.toNat plan)) exact := by
  unfold sizes
  split
  · next hmode =>
    rw [wp_bind]
    refine wp_divideUp (by decide) fun blocks _ => ⟨rfl, fun plan h => ?_⟩
    obtain rfl := Except.ok.inj h
    refine ⟨rfl, fun he => ?_⟩
    rw [hmode] at he
    exact nomatch he
  · rw [wp_bind]
    refine wp_divideUp (by decide) fun divided hdivided => ?_
    have hdivided' : divided.toNat = (inner.toNat + 511) / 512 := hdivided
    dsimp only
    have hpartitions : (if divided < 8 then divided else 8).toNat = min divided.toNat 8 := by
      split
      · next hlt =>
        have hlt' : divided.toNat < 8 := UInt64.lt_iff_toNat_lt.mp hlt
        exact (Nat.min_eq_left (Nat.le_of_lt hlt')).symm
      · next hge =>
        have hge' : 8 ≤ divided.toNat := UInt64.le_iff_toNat_le.mp (UInt64.not_lt.mp hge)
        exact (Nat.min_eq_right hge').symm
    generalize (if divided < 8 then divided else 8) = partitions at hpartitions
    rw [wp_bind]
    refine wp_product (fun rowPartitions hrowPartitions _ => ?_) fun e => ⟨rfl, fun _ h => nomatch h⟩
    dsimp only
    rw [wp_bind]
    refine wp_divideUp (by decide) fun columnTiles hcolumnTiles => ?_
    have hcolumnTiles' : columnTiles.toNat = (columns.toNat + 31) / 32 := hcolumnTiles
    dsimp only
    rw [wp_bind]
    refine wp_product (fun blocks hblocks _ => ?_) fun e => ⟨rfl, fun _ h => nomatch h⟩
    have hplanned : ∀ scratchElements : UInt64, scratchElements.toNat =
        (if partitions.toNat > 1 then rows.toNat * columns.toNat * partitions.toNat else 0) →
        ∀ plan, (Except.ok (Int8GemmPlan.mk implementation partitions blocks scratchElements) :
            Except StdError Int8GemmPlan) = .ok plan →
          plan.implementation = implementation ∧ (implementation = .Cooperative →
            plan.blocks.toNat < 2 ^ 31 → Planned rows.toNat inner.toNat columns.toNat plan) := by
      intro scratchElements hscratch plan h
      obtain rfl := Except.ok.inj h
      refine ⟨rfl, fun _ hlt => ⟨hrows, hinner, hcolumns, hright, ?_, ?_, ?_, hlt, hscratch⟩⟩
      · show 0 < partitions.toNat
        rw [hpartitions, hdivided']
        omega
      · show partitions.toNat ≤ 8
        rw [hpartitions]
        exact Nat.min_le_right _ _
      · show blocks.toNat = _
        rw [hblocks, hrowPartitions, hcolumnTiles']
    dsimp only
    split
    · next hmany =>
      have hmany' : partitions.toNat > 1 := UInt64.lt_iff_toNat_lt.mp hmany
      rw [wp_bind]
      refine wp_product (fun scratchElements hscratch _ => ⟨rfl, ?_⟩) fun e =>
        ⟨rfl, fun _ h => nomatch h⟩
      refine hplanned scratchElements ?_
      rw [hscratch, helements, if_pos hmany']
    · next hone =>
      have hone' : ¬ partitions.toNat > 1 := fun h => hone (UInt64.lt_iff_toNat_lt.mpr h)
      refine ⟨rfl, hplanned 0 ?_⟩
      rw [if_neg hone']
      rfl

/-- no operation of a plan wraps, and a cooperative one is made of the numbers that it stands for -/
theorem wp_planInt8Gemm (exact : Bool) (rows inner columns : UInt64) (mode : Int8GemmMode) :
    wp (planInt8Gemm rows inner columns mode) (fun r exact' => exact' = exact ∧
      ∀ plan, r = .ok plan → plan.implementation = .Cooperative →
        Planned rows.toNat inner.toNat columns.toNat plan) exact := by
  unfold planInt8Gemm
  rw [wp_bind, wp_throwIf]
  split
  · exact ⟨rfl, fun _ h => by cases h⟩
  next hzero =>
  rw [not_or, not_or] at hzero
  obtain ⟨hrows, hinner, hcolumns⟩ := hzero
  have hpos : ∀ {n : UInt64}, n ≠ 0 → 0 < n.toNat := fun {n} h =>
    Nat.pos_of_ne_zero fun h0 => h (UInt64.toNat_inj.mp h0)
  dsimp only
  rw [wp_bind]
  refine wp_product (fun elements helements _ => ?_) fun e => ⟨rfl, fun _ h => by cases h⟩
  dsimp only
  rw [wp_bind]
  refine wp_product (fun _ _ _ => ?_) fun e => ⟨rfl, fun _ h => by cases h⟩
  dsimp only
  rw [wp_bind]
  refine wp_product (fun _ _ hright => ?_) fun e => ⟨rfl, fun _ h => by cases h⟩
  dsimp only
  rw [wp_bind]
  refine wp_mono (wp_sizes (hpos hrows) (hpos hinner) (hpos hcolumns) hright helements)
    fun r exact' hsizes => ?_
  obtain ⟨hexact, hsizes⟩ := hsizes
  cases r with
  | error e => exact ⟨hexact, fun _ h => by cases h⟩
  | ok result =>
    dsimp only
    rw [wp_bind, wp_throwIf]
    split
    · exact ⟨hexact, fun _ h => by cases h⟩
    next hlimits =>
    rw [not_or] at hlimits
    refine ⟨hexact, fun plan h hmode => ?_⟩
    obtain rfl := Except.ok.inj h
    obtain ⟨himplementation, hplanned⟩ := hsizes result rfl
    refine hplanned (himplementation.symm.trans hmode) ?_
    have hle : result.blocks.toNat ≤ 0x7fffffff :=
      UInt64.le_iff_toNat_le.mp (UInt64.not_lt.mp hlimits.1)
    omega

end

end HyperMoE.Backend
