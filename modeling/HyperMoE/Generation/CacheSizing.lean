import HyperMoE.Generation.Admission
import HyperMoE.Lib.Watched

/-!
# The size of a cache, in words

`checkedCacheBytes` of `KVCache.cpp` once more, with the words and the divisions of the machine under
watch, and what the constructors rely on.

* `checkedCacheBytes`   the function;
* `Overlooked`          the extents that pass the guards, and whose bytes for a token are 2 ^ 64;
* `wp_sizing`           apart from these, the words are the numbers of `KVCache.checkedCacheBytes`;
* `Sized`               no operation wraps or divides by zero, and a size that is returned is exact.
-/

namespace HyperMoE.Generation.Sizing

open Lib Lib.Fallible Transformer Tensor

def checkedCacheBytes (layers sequence heads dimension : UInt64) : Code UInt64 := do
  throwIf (layers = 0 ∨ sequence = 0 ∨ heads = 0 ∨ dimension = 0)
    (.invalid_argument "KV cache dimensions must be nonzero")
  Watched.guardMul heads dimension (.invalid_argument "KV cache dimensions must be nonzero")
  let values ← Watched.mul heads dimension
  throwIf (values > maxWord / (2 * 4)) (.overflow_error "KV cache per-token storage overflows")
  let doubled ← Watched.mul 2 values
  let valueBytes ← Watched.mul doubled 4
  let perToken ← Watched.add 8 valueBytes
  Watched.guardMul sequence perToken (.overflow_error "KV cache maximum storage overflows")
  let perLayer ← Watched.mul sequence perToken
  Watched.guardMul layers perLayer (.overflow_error "KV cache maximum storage overflows")
  let tokens ← Watched.mul layers sequence
  Watched.mul tokens perToken

/-- as many values as the guards let through: eight bytes for each, and eight more, are 2 ^ 64 -/
def Overlooked (layers sequence heads dimension : UInt64) : Prop :=
  layers ≠ 0 ∧ sequence ≠ 0 ∧ heads.toNat * dimension.toNat = 2 ^ 61 - 1

/-- the bytes of a cache that is full -/
def cacheBytes (layers sequence heads dimension : Nat) : Nat :=
  layers * sequence * (8 + 8 * heads * dimension)

section
variable {layers sequence heads dimension : UInt64}

theorem toNat_ne_zero {a : UInt64} (h : a ≠ 0) : a.toNat ≠ 0 :=
  fun h0 => h (UInt64.toNat_inj.mp h0)

theorem lt_of_le_div {a b : Nat} (h : a ≤ (2 ^ 64 - 1) / b) (hb : b ≠ 0) : a * b < 2 ^ 64 := by
  rw [Nat.le_div_iff_mul_le (Nat.pos_of_ne_zero hb)] at h
  exact Nat.lt_of_le_of_lt h (by decide)

/-- apart from the overlooked extents, the words are the numbers, and nothing wraps -/
theorem wp_sizing (hguard : ¬ Overlooked layers sequence heads dimension) :
    wp (checkedCacheBytes layers sequence heads dimension) (fun r exact => exact = true ∧
      r.map UInt64.toNat = KVCache.checkedCacheBytes layers.toNat sequence.toNat heads.toNat
        dimension.toNat) true := by
  unfold checkedCacheBytes KVCache.checkedCacheBytes KVCache.maxSize
  rw [wp_bind, wp_throwIf]
  split
  · next hzero =>
    refine ⟨rfl, ?_⟩
    rw [if_pos]
    · rfl
    · rcases hzero with rfl | rfl | rfl | rfl
      · exact .inl rfl
      · exact .inr (.inl rfl)
      · exact .inr (.inr (.inl rfl))
      · exact .inr (.inr (.inr (.inl rfl)))
  next hzero =>
  simp only [not_or] at hzero
  obtain ⟨hlayers, hsequence, hheads, hdimension⟩ := hzero
  replace hlayers := toNat_ne_zero hlayers
  replace hsequence := toNat_ne_zero hsequence
  dsimp only
  rw [wp_bind]
  refine Watched.wp_guardMul hdimension (fun hfew => ?_) fun hmany =>
    ⟨rfl, (if_pos (.inr (.inr (.inr (.inr hmany))))).symm⟩
  replace hdimension := toNat_ne_zero hdimension
  rw [if_neg (by simp only [not_or]; exact ⟨hlayers, hsequence, toNat_ne_zero hheads, hdimension,
    Nat.not_lt.mpr hfew⟩)]
  dsimp only
  rw [wp_bind]
  refine Watched.wp_mul (lt_of_le_div hfew hdimension) fun values hvalues => ?_
  rw [← hvalues]
  dsimp only
  rw [wp_bind, wp_throwIf]
  split
  · next hmany => exact ⟨rfl, (if_pos (UInt64.lt_iff_toNat_lt.mp hmany)).symm⟩
  next hmany =>
  have hbound : values.toNat ≤ 2 ^ 61 - 1 := UInt64.le_iff_toNat_le.mp (UInt64.not_lt.mp hmany)
  rw [if_neg (show ¬ values.toNat > (2 ^ 64 - 1) / 8 from Nat.not_lt.mpr hbound)]
  have hne : values.toNat ≠ 2 ^ 61 - 1 := fun h =>
    hguard ⟨fun h0 => hlayers (h0 ▸ rfl), fun h0 => hsequence (h0 ▸ rfl), hvalues.symm.trans h⟩
  dsimp only
  rw [wp_bind]
  refine Watched.wp_mul (a := 2) (show 2 * values.toNat < 2 ^ 64 by omega) fun doubled hdoubled => ?_
  replace hdoubled : doubled.toNat = 2 * values.toNat := hdoubled
  dsimp only
  rw [wp_bind]
  refine Watched.wp_mul (b := 4) (show doubled.toNat * 4 < 2 ^ 64 by omega) fun valueBytes hbytes => ?_
  replace hbytes : valueBytes.toNat = doubled.toNat * 4 := hbytes
  dsimp only
  rw [wp_bind]
  refine Watched.wp_add (a := 8) (show 8 + valueBytes.toNat < 2 ^ 64 by omega)
    fun perToken hperToken => ?_
  replace hperToken : perToken.toNat = 8 + valueBytes.toNat := hperToken
  have hword : (8 + 2 * values.toNat * 4) % 2 ^ 64 = perToken.toNat := by
    rw [Nat.mod_eq_of_lt (by omega)]
    omega
  have hpositive : perToken.toNat ≠ 0 := by omega
  rw [hword, if_neg hpositive]
  dsimp only
  rw [wp_bind]
  refine Watched.wp_guardMul (fun h0 => hpositive (h0 ▸ rfl)) (fun hshort => ?_) fun hlong =>
    ⟨rfl, (if_pos (.inl hlong)).symm⟩
  dsimp only
  rw [wp_bind]
  refine Watched.wp_mul (lt_of_le_div hshort hpositive) fun perLayer hperLayer => ?_
  rw [← hperLayer]
  have hlayer : perLayer.toNat ≠ 0 := hperLayer ▸ Nat.mul_ne_zero hsequence hpositive
  dsimp only
  rw [wp_bind]
  refine Watched.wp_guardMul (fun h0 => hlayer (h0 ▸ rfl)) (fun hshallow => ?_) fun hdeep =>
    ⟨rfl, (if_pos (.inr hdeep)).symm⟩
  have htotal : layers.toNat * sequence.toNat * perToken.toNat < 2 ^ 64 := by
    rw [Nat.mul_assoc, ← hperLayer]
    exact lt_of_le_div hshallow hlayer
  have htokens : layers.toNat * sequence.toNat < 2 ^ 64 :=
    Nat.lt_of_le_of_lt (Nat.le_mul_of_pos_right _ (Nat.pos_of_ne_zero hpositive)) htotal
  rw [if_neg (not_or.mpr ⟨Nat.not_lt.mpr hshort, Nat.not_lt.mpr hshallow⟩)]
  dsimp only
  rw [wp_bind]
  refine Watched.wp_mul htokens fun tokens htoken => ?_
  refine Watched.wp_mul (htoken ▸ htotal) fun bytes hbyte => ⟨rfl, ?_⟩
  show Except.ok bytes.toNat = _
  rw [hbyte, htoken]

/-- the bytes of a token wrap around to zero, and the code divides by them -/
theorem wp_overlooked (hguard : Overlooked layers sequence heads dimension) :
    wp (checkedCacheBytes layers sequence heads dimension) (fun _ exact => exact = false) true := by
  obtain ⟨hlayers, hsequence, hvalues⟩ := hguard
  have hheads : heads ≠ 0 := by
    rintro rfl
    rw [show (0 : UInt64).toNat = 0 from rfl, Nat.zero_mul] at hvalues
    exact absurd hvalues (by decide)
  have hdimension : dimension ≠ 0 := by
    rintro rfl
    rw [show (0 : UInt64).toNat = 0 from rfl, Nat.mul_zero] at hvalues
    exact absurd hvalues (by decide)
  have hfew : heads.toNat ≤ (2 ^ 64 - 1) / dimension.toNat := by
    rw [Nat.le_div_iff_mul_le (Nat.pos_of_ne_zero (toNat_ne_zero hdimension)), hvalues]
    decide
  unfold checkedCacheBytes
  rw [wp_bind, wp_throwIf, if_neg (by simp only [not_or]; exact ⟨hlayers, hsequence, hheads, hdimension⟩)]
  dsimp only
  rw [wp_bind]
  refine Watched.wp_guardMul hdimension (fun _ => ?_) fun hmany => absurd hmany (Nat.not_lt.mpr hfew)
  dsimp only
  rw [wp_bind]
  refine Watched.wp_mul (by rw [hvalues]; decide) fun values hvalue => ?_
  replace hvalue := hvalue.trans hvalues
  dsimp only
  rw [wp_bind, wp_throwIf, if_neg (UInt64.not_lt.mpr (UInt64.le_iff_toNat_le.mpr (Nat.le_of_eq hvalue)))]
  dsimp only
  rw [wp_bind]
  refine Watched.wp_mul (a := 2) (by rw [hvalue]; decide) fun doubled hdoubled => ?_
  rw [hvalue] at hdoubled
  dsimp only
  rw [wp_bind]
  refine Watched.wp_mul (b := 4) (by rw [hdoubled]; decide) fun valueBytes hbytes => ?_
  rw [hdoubled] at hbytes
  dsimp only
  rw [wp_bind]
  refine Watched.wp_add_wraps (by rw [hbytes]; decide) ?_
  exact (Watched.remembers_guardMul _ _ _).bind fun _ => (Watched.remembers_op _ _).bind fun _ =>
    (Watched.remembers_guardMul _ _ _).bind fun _ => (Watched.remembers_op _ _).bind fun _ =>
      Watched.remembers_op _ _

/-! ## the size that is promised -/

/-- nothing wraps, nothing is divided by zero, and no cache and no manager is built for less -/
structure Sized (layers sequence heads dimension : UInt64) : Prop where
  exact : ((checkedCacheBytes layers sequence heads dimension).exec true).2 = true
  bytes : ∀ bytes, ((checkedCacheBytes layers sequence heads dimension).exec true).1 = .ok bytes →
    bytes.toNat = cacheBytes layers.toNat sequence.toNat heads.toNat dimension.toNat
  refusal : ∀ e, ((checkedCacheBytes layers sequence heads dimension).exec true).1 = .error e →
    ∃ what, e = .invalid_argument what ∨ e = .overflow_error what
  cache : ∀ K cache, KVCache.make K layers.toNat sequence.toNat heads.toNat dimension.toNat =
    .ok cache → cache.maximumMemoryUsageBytes =
      .ok (cacheBytes layers.toNat sequence.toNat heads.toNat dimension.toNat)
  manager : ∀ K memoryLimitBytes backend m, KVCacheManager.make K layers sequence heads dimension
    memoryLimitBytes backend = .ok m →
      m.bytesPerSession = cacheBytes layers.toNat sequence.toNat heads.toNat dimension.toNat

theorem checked_exact {l s h d bytes : Nat} (hbytes : KVCache.checkedCacheBytes l s h d = .ok bytes) :
    bytes = cacheBytes l s h d := by
  obtain ⟨-, rfl, -⟩ := checkedCacheBytes_eq_ok hbytes
  unfold cacheBytes
  ring

theorem checked_of_make {K : Type} {memoryLimitBytes : UInt64} {backend : Option TensorBackend}
    {m : KVCacheManager (Cache K backend)} (h : KVCacheManager.make K layers sequence heads dimension
      memoryLimitBytes backend = .ok m) : KVCache.checkedCacheBytes layers.toNat sequence.toNat
        heads.toNat dimension.toNat = .ok m.bytesPerSession := by
  unfold KVCacheManager.make at h
  obtain ⟨-, h⟩ := Outcome.throwIf_bind_eq_ok.mp h
  obtain ⟨prototype, hprototype, h⟩ := Outcome.bind_eq_ok.mp h
  obtain ⟨bytes, hbytes, h⟩ := Outcome.bind_eq_ok.mp h
  obtain ⟨-, h⟩ := Outcome.throwIf_bind_eq_ok.mp h
  obtain rfl := Except.ok.inj h
  rw [← (Admission.shaped_make (Outcome.mapError_eq_ok.mp hprototype)).1.checked]
  exact Outcome.mapError_eq_ok.mp hbytes

theorem error_of_checked {l s h d : Nat} {e : StdError}
    (hvalues : l ≠ 0 → s ≠ 0 → h * d ≠ 2 ^ 61 - 1)
    (he : KVCache.checkedCacheBytes l s h d = .error e) :
    ∃ what, e = .invalid_argument what ∨ e = .overflow_error what := by
  unfold KVCache.checkedCacheBytes KVCache.maxSize at he
  split at he
  · exact ⟨_, .inl (Except.error.inj he).symm⟩
  next hnonzero =>
  rw [not_or, not_or] at hnonzero
  have hne := hvalues hnonzero.1 hnonzero.2.1
  split at he
  · exact ⟨_, .inr (Except.error.inj he).symm⟩
  next hfew =>
  dsimp only at he
  split at he
  · next hzero =>
    have hbound : h * d ≤ 2 ^ 61 - 1 := Nat.le_of_not_lt hfew
    omega
  split at he
  · exact ⟨_, .inr (Except.error.inj he).symm⟩
  · exact nomatch he

/-- the size is right exactly where the guards do not overlook that a token needs 2 ^ 64 bytes -/
theorem sized_iff (layers sequence heads dimension : UInt64) :
    Sized layers sequence heads dimension ↔ ¬ Overlooked layers sequence heads dimension := by
  constructor
  · intro hsized hover
    have hinexact : ((checkedCacheBytes layers sequence heads dimension).exec true).2 = false :=
      wp_overlooked hover
    exact Bool.noConfusion (hsized.exact.symm.trans hinexact)
  · intro hguard
    obtain ⟨hexact, hnumbers⟩ := wp_sizing hguard
    refine ⟨hexact, fun bytes hbytes => ?_, fun e he => ?_, fun K cache hcache => ?_,
      fun K memoryLimitBytes backend m hm => ?_⟩
    · rw [hbytes] at hnumbers
      exact checked_exact hnumbers.symm
    · rw [he] at hnumbers
      exact error_of_checked (fun hlayers hsequence hvalues => hguard
        ⟨fun h0 => hlayers (h0 ▸ rfl), fun h0 => hsequence (h0 ▸ rfl), hvalues⟩) hnumbers.symm
    · obtain ⟨hshaped, bytes, hbytes⟩ := Admission.shaped_make hcache
      rw [hshaped.checked, hbytes, checked_exact hbytes]
    · exact checked_exact (checked_of_make hm)

/-- one layer, one token, one head of 2 ^ 61 - 1 dimensions -/
theorem not_sized_last_dimension : ¬ Sized 1 1 1 2305843009213693951 := fun h => by
  refine Bool.noConfusion (h.exact.symm.trans (?_ : _ = false))
  decide +kernel

end

end HyperMoE.Generation.Sizing
