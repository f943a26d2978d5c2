import Mathlib.Data.Rat.Cast.Order
import HyperMoE.Generation.Generator
import HyperMoE.Lib.Distribution
import HyperMoE.Lib.Extended
import HyperMoE.Lib.FloatValue
import HyperMoE.Lib.Outcome
import HyperMoE.Lib.Ranking

/-!
# The probabilities of the tokens

`LogitsProcessor.cpp`: the logits are ranked, the first `topK` of them get a softmax, and the end of
what is more than `topP` is cut.  The `double` values are exact.

* `order`, `exponentials`, `nucleus`   the ranking, the softmax and the cut;
* `probabilities`                      the whole;
* `Exponential`                        what is assumed of `std::exp`;
* `Supported`                          what the probabilities are;
* `probabilities_supported`            a valid configuration gives them.
-/

namespace HyperMoE.Generation.LogitsProcessor

open Lib

variable {K : Type} [Field K] [LinearOrder K]

/-- `if (!std::isfinite(value)) throw ...` for every logit, and then their values -/
def finiteLogits : List (Extended K) → Except Exn (List K) :=
  Extended.finites (.invalidArgument "sampler requires finite logits")

/-- `std::stable_sort(order.begin(), order.end(), ...)` -/
def order (logits : List K) : List Nat :=
  (List.range logits.length).mergeSort fun left right =>
    ¬ logits.getD right 0 > logits.getD left 0

def scale (config : SamplingConfig) : K :=
  match config.strategy with
  | .Stochastic => config.temperature.value
  | .Greedy => 1

/-- `for (rank = 0; rank < retained; ++rank) ...`: the results and their total -/
def exponentials (exp : K → K) (logits : List K) (scale maximum : K) (ranked : List Nat) :
    List K × K :=
  ranked.foldl (fun (result, total) index =>
    let p := exp (logits.getD index 0 / scale - maximum)
    (result.set index p, total + p)) (List.replicate logits.length 0, 0)

/-- `for (; keep < retained; ++keep) ...` over the probabilities by rank -/
def keepLoop (topP : K) : K → Nat → List K → Nat
  | _, keep, [] => keep
  | cumulative, keep, p :: ps =>
    if cumulative + p ≥ topP then keep + 1 else keepLoop topP (cumulative + p) (keep + 1) ps

/-- `if (config.topP < 1.0F) ...` -/
def nucleus (topP : K) (ranked : List Nat) (result : List K) : List K :=
  let keep := max 1 (keepLoop topP 0 0 (ranked.map fun index => result.getD index 0))
  let result := (ranked.drop keep).foldl (fun result index => result.set index 0) result
  let keptTotal := result.sum
  result.map fun p => p / keptTotal

def probabilities (exp : K → K) (logits : List (Extended K)) (config : SamplingConfig) :
    Except Exn (List K) := do
  config.validate logits.length
  let logits ← finiteLogits logits
  let order := order logits
  let retained := if config.topK = 0 then logits.length else config.topK
  let ranked := order.take retained
  let scale := scale config
  let maximum := logits.getD (order.getD 0 0) 0 / scale
  let (result, total) := exponentials exp logits scale maximum ranked
  Outcome.throwIf (total ≤ 0) (.runtimeError "logits softmax normalization failed")
  let result := result.map fun p => p / total
  return if config.topP.value < 1 then nucleus config.topP.value ranked result else result

/-! ## the loops -/

section
variable {logits : List K} {ranked : List Nat}

theorem keepLoop_eq {topP : K} {ps : List K} : ∀ {cumulative : K} {keep k : Nat},
    crossing (topP ≤ ·) cumulative ps = some k →
    keepLoop topP cumulative keep ps = keep + k + 1 := by
  induction ps with
  | nil => exact fun h => nomatch h
  | cons p ps ih =>
    intro cumulative keep k h
    rw [crossing] at h
    rw [keepLoop]
    split at h
    · next hreached =>
      obtain rfl := Option.some.inj h
      exact if_pos hreached
    · next hnot =>
      obtain ⟨k, hk, rfl⟩ := Option.map_eq_some_iff.mp h
      rw [if_neg hnot, ih hk]
      omega

omit [LinearOrder K] in
theorem exponentials_eq (exp : K → K) (scale maximum : K) :
    exponentials exp logits scale maximum ranked =
      (spread logits.length ranked fun index => exp (logits.getD index 0 / scale - maximum),
        (ranked.map fun index => exp (logits.getD index 0 / scale - maximum)).sum) := by
  have hloop : ∀ (ranked : List Nat) (result : List K) (total : K),
      ranked.foldl (fun (result, total) index =>
          (result.set index (exp (logits.getD index 0 / scale - maximum)),
            total + exp (logits.getD index 0 / scale - maximum))) (result, total) =
        (ranked.foldl (fun result index =>
            result.set index (exp (logits.getD index 0 / scale - maximum))) result,
          total + (ranked.map fun index => exp (logits.getD index 0 / scale - maximum)).sum) := by
    intro ranked
    induction ranked with
    | nil =>
      intro result total
      rw [List.map_nil, List.sum_nil, add_zero]
      rfl
    | cons index ranked ih =>
      intro result total
      rw [List.foldl_cons, ih, List.foldl_cons, List.map_cons, List.sum_cons, add_assoc]
  refine (hloop ranked _ 0).trans ?_
  rw [zero_add, ← spread_nil (w := fun _ => 0), foldl_set, List.nil_append]
  exact congrArg (·, _) (spread_congr (fun _ => Iff.rfl) fun index h => if_pos h)

omit [LinearOrder K] in
/-- the last ranks are set to zero -/
theorem foldl_zero {n : Nat} (hnodup : ranked.Nodup) (keep : Nat) (w : Nat → K) :
    (ranked.drop keep).foldl (fun result index => result.set index 0) (spread n ranked w) =
      spread n (ranked.take keep) w := by
  rw [foldl_set (fun _ => 0)]
  refine List.map_congr_left fun index _ => ?_
  have hsplit : index ∈ ranked ↔ index ∈ ranked.take keep ∨ index ∈ ranked.drop keep := by
    rw [← List.mem_append, List.take_append_drop]
  have hdisjoint : index ∈ ranked.take keep → index ∉ ranked.drop keep := by
    rw [← List.take_append_drop keep ranked] at hnodup
    exact fun htake hdrop => (List.nodup_append'.mp hnodup).2.2 htake hdrop
  show (if index ∈ ranked ++ ranked.drop keep then
    (if index ∈ ranked.drop keep then 0 else w index) else 0) = _
  by_cases htake : index ∈ ranked.take keep
  · rw [if_pos htake, if_pos (List.mem_append_left _ (hsplit.mpr (Or.inl htake))),
      if_neg (hdisjoint htake)]
  · rw [if_neg htake]
    by_cases hdrop : index ∈ ranked.drop keep
    · rw [if_pos hdrop, ite_self]
    · refine if_neg fun h => ?_
      rcases List.mem_append.mp h with hranked | hdrop'
      · exact (hsplit.mp hranked).elim htake hdrop
      · exact hdrop hdrop'

theorem nucleus_eq [IsStrictOrderedRing K] {n : Nat} {topP : K} {w : Nat → K}
    (hnodup : ranked.Nodup) (hlt : ∀ index ∈ ranked, index < n) (hne : ranked ≠ [])
    (hpos : ∀ index ∈ ranked, 0 < w index) (hp : 0 < topP) (hone : topP ≤ 1) :
    ∃ support, Nucleus w topP ranked support ∧
      nucleus topP ranked (spread n ranked fun index => w index / (ranked.map w).sum) =
        spread n support fun index => w index / (support.map w).sum := by
  obtain ⟨k, hk, hnucleus⟩ := nucleus_crossing hpos hne hp hone
  refine ⟨ranked.take (k + 1), hnucleus, ?_⟩
  have hread : (ranked.map fun index =>
      (spread n ranked fun index => w index / (ranked.map w).sum).getD index 0) =
      ranked.map fun index => w index / (ranked.map w).sum :=
    List.map_congr_left fun index h => (getD_spread (hlt index h)).trans (if_pos h)
  have hkeep : max 1 (0 + k + 1) = k + 1 := by omega
  have hsub : ∀ index ∈ ranked.take (k + 1), index ∈ ranked := fun _ => List.mem_of_mem_take
  simp only [nucleus, hread, keepLoop_eq hk, hkeep]
  rw [foldl_zero hnodup, sum_spread (hnodup.sublist (List.take_sublist _ _)) fun index h =>
    hlt index (hsub index h), spread_div]
  refine spread_congr (fun _ => Iff.rfl) fun index _ => ?_
  rw [sum_map_div, div_div_div_cancel_right₀ (sum_map_pos hpos hne).ne']

end

/-! ## the probabilities -/

/-- what is assumed of `std::exp` -/
structure Exponential (exp : K → K) : Prop where
  pos : ∀ x, 0 < exp x
  add : ∀ x y, exp (x + y) = exp x * exp y

/-- a distribution over `n` tokens: those of the support, by weight, and no others -/
structure Supported (weight : Nat → K) (support : List Nat) (n : Nat) (result : List K) : Prop where
  length : result.length = n
  nonneg : ∀ p ∈ result, 0 ≤ p
  sum : result.sum = 1
  positive : ∀ index < n, 0 < result.getD index 0 ↔ index ∈ support
  proportional : ∀ index ∈ support,
    result.getD index 0 = weight index / (support.map weight).sum

theorem supported_spread [IsStrictOrderedRing K] {n : Nat} {support : List Nat} {weight : Nat → K}
    (hnodup : support.Nodup) (hlt : ∀ index ∈ support, index < n) (hne : support ≠ [])
    (hpos : ∀ index, 0 < weight index) :
    Supported weight support n
      (spread n support fun index => weight index / (support.map weight).sum) := by
  have htotal := sum_map_pos (fun index _ => hpos index) hne
  have hshare : ∀ index, 0 < weight index / (support.map weight).sum :=
    fun index => div_pos (hpos index) htotal
  refine ⟨length_spread, fun p hp => ?_, ?_, fun index h => ?_, fun index h => ?_⟩
  · obtain ⟨index, _, rfl⟩ := List.mem_map.mp hp
    show 0 ≤ if index ∈ support then _ else _
    split
    · exact (hshare index).le
    · exact le_refl 0
  · rw [sum_spread hnodup hlt, sum_map_div, div_self htotal.ne']
  · rw [getD_spread h]
    constructor
    · intro hpositive
      by_contra hnot
      rw [if_neg hnot] at hpositive
      exact lt_irrefl 0 hpositive
    · intro hmem
      rw [if_pos hmem]
      exact hshare index
  · rw [getD_spread (hlt index h), if_pos h]

/-- the tokens, by falling logit and rising index -/
abbrev before (logits : List K) : Nat → Nat → Prop :=
  keyed fun index => OrderDual.toDual (logits.getD index 0)

theorem leading_order (logits : List K) (k : Nat) :
    Leading (before logits) (List.range logits.length) ((order logits).take k) := by
  have hcompare : (fun left right => decide ¬ logits.getD right 0 > logits.getD left 0) =
      fun left right => decide (OrderDual.toDual (logits.getD left 0) ≤
        OrderDual.toDual (logits.getD right 0)) :=
    funext fun left => funext fun right => decide_eq_decide.mpr not_lt
  rw [order, hcompare]
  exact leading_stableSort _ List.pairwise_lt_range k

def retained (n : Nat) (config : SamplingConfig) : Nat :=
  if config.topK = 0 then n else config.topK

def weight (exp : K → K) (logits : List K) (config : SamplingConfig) (index : Nat) : K :=
  exp (logits.getD index 0 / scale config)

/-- what `validate` accepts -/
theorem validate_eq_ok {config : SamplingConfig} {n : Nat} (h : config.validate n = .ok ()) :
    0 < n ∧ (config.topK = 0 ∨ config.topK ≤ n) ∧ 0 < config.topP.value ∧
      config.topP.value ≤ 1 ∧ 0 < config.temperature.value := by
  rw [SamplingConfig.validate] at h
  split at h
  · exact nomatch h
  · next hvalid =>
    simp only [not_or, not_and, Bool.not_eq_true, Bool.not_eq_false] at hvalid
    obtain ⟨hn, htemperature, htemperature', htopK, htopP, htopP', hone⟩ := hvalid
    refine ⟨Nat.pos_of_ne_zero hn, ?_, Binary32.value_pos htopP htopP', ?_,
      Binary32.value_pos htemperature htemperature'⟩
    · by_cases hzero : config.topK = 0
      · exact Or.inl hzero
      · exact Or.inr (Nat.not_lt.mp (htopK hzero))
    · obtain ⟨hsign, _⟩ := Binary32.bits_of_positive htopP htopP'
      refine Binary32.value_le_one hsign (Nat.not_lt.mp fun hlt => ?_)
      exact of_decide_eq_false hone ⟨hsign, UInt32.lt_iff_toNat_lt.mpr hlt⟩

omit [Field K] [LinearOrder K] in
theorem finiteLogits_finite (logits : List K) :
    finiteLogits (logits.map .finite) = .ok logits := Extended.finites_finite _ logits

/-- the softmax of the ranked tokens, and the cut of it -/
theorem cut_eq [IsStrictOrderedRing K] {n : Nat} {ranked : List Nat} {topP : ℚ} {w : Nat → K}
    (hnodup : ranked.Nodup) (hlt : ∀ index ∈ ranked, index < n) (hne : ranked ≠ [])
    (hpos : ∀ index ∈ ranked, 0 < w index) (hp : 0 < topP) (hone : topP ≤ 1) :
    ∃ support, Nucleus w (topP : K) ranked support ∧
      (if topP < 1 then
        nucleus (topP : K) ranked (spread n ranked fun index => w index / (ranked.map w).sum)
      else spread n ranked fun index => w index / (ranked.map w).sum) =
        spread n support fun index => w index / (support.map w).sum := by
  rcases hone.lt_or_eq with hbelow | rfl
  · rw [if_pos hbelow]
    exact nucleus_eq hnodup hlt hne hpos (by exact_mod_cast hp) (by exact_mod_cast hone)
  · rw [if_neg (lt_irrefl 1), Rat.cast_one]
    exact ⟨ranked, Nucleus.whole hpos hne, rfl⟩

/-- the exponential of a logit, below the greatest one -/
def lowered (exp : K → K) (logits : List K) (config : SamplingConfig) (index : Nat) : K :=
  exp (logits.getD index 0 / scale config -
    logits.getD ((order logits).getD 0 0) 0 / scale config)

theorem probabilities_eq {exp : K → K} {logits : List K} {config : SamplingConfig}
    {ranked : List Nat} (hvalid : config.validate logits.length = .ok ())
    (hranked : (order logits).take (retained logits.length config) = ranked)
    (htotal : 0 < (ranked.map (lowered exp logits config)).sum) :
    probabilities exp (logits.map .finite) config =
      .ok (if config.topP.value < 1 then
        nucleus (config.topP.value : K) ranked (spread logits.length ranked fun index =>
          lowered exp logits config index / (ranked.map (lowered exp logits config)).sum)
      else spread logits.length ranked fun index =>
        lowered exp logits config index / (ranked.map (lowered exp logits config)).sum) := by
  subst hranked
  have hbind : ∀ {α β : Type} (a : α) (f : α → Except Exn β), (Except.ok a >>= f) = f a :=
    fun _ _ => rfl
  simp only [probabilities, List.length_map, hvalid, finiteLogits_finite, hbind, exponentials_eq]
  exact (Outcome.throwIf_bind_of_not (not_le.mpr htotal)).trans (by rw [spread_div]; rfl)

theorem lowered_eq {exp : K → K} (hexp : Exponential exp) (logits : List K)
    (config : SamplingConfig) :
    ∃ c, 0 < c ∧ lowered exp logits config = fun index => weight exp logits config index * c := by
  refine ⟨_, hexp.pos (-(logits.getD ((order logits).getD 0 0) 0 / scale config)), ?_⟩
  funext index
  rw [lowered, sub_eq_add_neg, hexp.add]
  rfl

theorem length_ranked {logits : List K} {config : SamplingConfig}
    (hvalid : config.validate logits.length = .ok ()) :
    ((order logits).take (retained logits.length config)).length =
      retained logits.length config ∧ 0 < retained logits.length config := by
  obtain ⟨hn, htopK, _⟩ := validate_eq_ok hvalid
  have hretained : 0 < retained logits.length config ∧
      retained logits.length config ≤ logits.length := by
    rw [retained]
    split <;> omega
  refine ⟨?_, hretained.1⟩
  rw [List.length_take, order, List.length_mergeSort, List.length_range]
  exact Nat.min_eq_left hretained.2

theorem probabilities_supported [IsStrictOrderedRing K] {exp : K → K} (hexp : Exponential exp)
    {logits : List K} {config : SamplingConfig} (hvalid : config.validate logits.length = .ok ()) :
    ∃ result ranked support, probabilities exp (logits.map .finite) config = .ok result ∧
      Leading (before logits) (List.range logits.length) ranked ∧
      ranked.length = retained logits.length config ∧
      Nucleus (weight exp logits config) config.topP.value ranked support ∧
      Supported (weight exp logits config) support logits.length result := by
  obtain ⟨_, _, hp, hone, _⟩ := validate_eq_ok hvalid
  obtain ⟨hcount, hpositive⟩ := length_ranked hvalid
  have hleading := leading_order logits (retained logits.length config)
  generalize hranked : (order logits).take (retained logits.length config) = ranked
    at hcount hleading
  have hnodup := hleading.nodup (ranks_keyed _)
  have hlt : ∀ index ∈ ranked, index < logits.length :=
    fun index h => List.mem_range.mp (hleading.mem index h)
  have hne : ranked ≠ [] := List.length_pos_iff.mp (hcount ▸ hpositive)
  have hweight : ∀ index, 0 < weight exp logits config index := fun index => hexp.pos _
  obtain ⟨c, hc, hlowered⟩ := lowered_eq hexp logits config
  have hscaled : ∀ index ∈ ranked, 0 < lowered exp logits config index := by
    intro index _
    rw [hlowered]
    exact mul_pos (hweight index) hc
  obtain ⟨support, hnucleus, hcut⟩ := cut_eq hnodup hlt hne hscaled hp hone
  have hsub := hnucleus.isPrefix.sublist
  have hnil := hnucleus.ne_nil (by exact_mod_cast hp)
  rw [hlowered] at hnucleus
  refine ⟨_, ranked, support, ?_, hleading, hcount, hnucleus.unscale hc.ne',
    supported_spread (hnodup.sublist hsub) (fun index h => hlt index (hsub.subset h)) hnil
      hweight⟩
  rw [probabilities_eq hvalid hranked (sum_map_pos hscaled hne), hcut]
  refine congrArg Except.ok (spread_congr (fun _ => Iff.rfl) fun index _ => ?_)
  rw [hlowered, List.sum_map_mul_right, mul_div_mul_right _ _ hc.ne']

end HyperMoE.Generation.LogitsProcessor
