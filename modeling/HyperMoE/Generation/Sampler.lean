import Mathlib.Analysis.Complex.Exponential
import HyperMoE.Generation.LogitsProcessor

/-!
# The sampler

`Sampler.cpp`: the greatest logit, or a token that is drawn by its probability.  The generator of
random bits is given: what it answers in each of its states, and the state that it is in then.

* `maxElement`          `std::max_element`;
* `drawLoop`            the loop over the cumulated probabilities, and how it is left;
* `sample`              the whole;
* `drawLoop_returned`   the loop is left with a token that has a probability.
-/

namespace HyperMoE.Generation.Sampler

open Lib Lib.Fallible LogitsProcessor

/-- `std::numeric_limits<std::uint32_t>::max()` -/
def maxTokenId : Nat := 2 ^ 32 - 1

structure State (γ : Type) where
  config_ : SamplingConfig
  random_ : γ

/-- by `return`, or past the last index -/
inductive Exit where
  | returned (index : Nat)
  | past (last : Nat)
  deriving DecidableEq, Repr

variable {K γ : Type} [Field K] [LinearOrder K]

def maxElement (logits : List K) : Nat :=
  (List.range logits.length).foldl (fun largest index =>
    if logits.getD largest 0 < logits.getD index 0 then index else largest) 0

/-- `static_cast<double>(random_() >> 11U) / denominator` -/
def drawOf (bits : UInt64) : K := ((bits >>> 11).toNat : K) / 9007199254740992

def drawLoop (draw : K) : K → Nat → Nat → List K → Exit
  | _, last, _, [] => .past last
  | cumulative, last, index, p :: ps =>
    let last := if p > 0 then index else last
    let cumulative := cumulative + p
    if draw < cumulative then .returned index else drawLoop draw cumulative last (index + 1) ps

/-- `static_cast<std::uint32_t>` of the index that is returned -/
def Exit.token : Exit → TokenId
  | .returned index => index % 2 ^ 32
  | .past last => last % 2 ^ 32

def sample (exp : K → K) (random : γ → UInt64 × γ) (logits : List (Extended K)) :
    Fallible Exn (State γ) TokenId := do
  let s ← read
  settle (s.config_.validate logits.length)
  throwIf (logits.length > maxTokenId)
    (.invalidArgument "sampler vocabulary exceeds token ID range")
  match s.config_.strategy with
  | .Greedy => do
    let logits ← settle (finiteLogits logits)
    return maxElement logits % 2 ^ 32
  | .Stochastic => do
    let probabilities ← settle (probabilities exp logits s.config_)
    let bits ← updateGet fun s =>
      ((random s.random_).1, { s with random_ := (random s.random_).2 })
    return (drawLoop (drawOf bits) 0 0 0 probabilities).token

/-! ## the greatest logit -/

/-- not after any other token -/
structure First (logits : List K) (n token : Nat) : Prop where
  lt : token < n
  greatest : ∀ index < n, logits.getD index 0 ≤ logits.getD token 0
  smallest : ∀ index < n, logits.getD index 0 = logits.getD token 0 → token ≤ index

theorem first_foldl (logits : List K) (n : Nat) :
    First logits (n + 1) ((List.range (n + 1)).foldl (fun largest index =>
      if logits.getD largest 0 < logits.getD index 0 then index else largest) 0) := by
  induction n with
  | zero =>
    have hzero : (List.range (0 + 1)).foldl (fun largest index =>
        if logits.getD largest 0 < logits.getD index 0 then index else largest) 0 = 0 := ite_self 0
    rw [hzero]
    refine ⟨Nat.zero_lt_one, fun index hindex => ?_, fun index _ _ => Nat.zero_le index⟩
    obtain rfl : index = 0 := Nat.lt_one_iff.mp hindex
    exact le_refl _
  | succ n ih =>
    rw [List.range_succ, List.foldl_append, List.foldl_cons, List.foldl_nil]
    generalize (List.range (n + 1)).foldl _ 0 = largest at ih ⊢
    split
    · next hless =>
      refine ⟨Nat.lt_succ_self _, fun index hindex => ?_, fun index hindex he => ?_⟩
      · rcases Nat.lt_succ_iff_lt_or_eq.mp hindex with hlt | rfl
        · exact (ih.greatest index hlt).trans hless.le
        · exact le_refl _
      · rcases Nat.lt_succ_iff_lt_or_eq.mp hindex with hlt | rfl
        · exact absurd (he ▸ ih.greatest index hlt) (not_le.mpr hless)
        · exact Nat.le_refl _
    · next hnot =>
      refine ⟨Nat.lt_succ_of_lt ih.lt, fun index hindex => ?_, fun index hindex he => ?_⟩
      · rcases Nat.lt_succ_iff_lt_or_eq.mp hindex with hlt | rfl
        · exact ih.greatest index hlt
        · exact not_lt.mp hnot
      · rcases Nat.lt_succ_iff_lt_or_eq.mp hindex with hlt | rfl
        · exact ih.smallest index hlt he
        · exact Nat.le_of_lt ih.lt

theorem first_maxElement {logits : List K} (hne : 0 < logits.length) :
    First logits logits.length (maxElement logits) := by
  have h := first_foldl logits (logits.length - 1)
  rwa [Nat.sub_add_cancel hne] at h

/-- the first of the ranking -/
theorem First.before_of_ne {logits : List K} {n token : Nat} (h : First logits n token)
    {index : Nat} (hindex : index < n) (hne : index ≠ token) : before logits token index := by
  rcases (h.greatest index hindex).lt_or_eq with hlt | he
  · exact Or.inl (OrderDual.toDual_lt_toDual.mpr hlt)
  · exact Or.inr ⟨congrArg OrderDual.toDual he.symm,
      lt_of_le_of_ne (h.smallest index hindex he) (Ne.symm hne)⟩

theorem First.mem {logits : List K} {n token : Nat} (h : First logits n token)
    {ranked support : List Nat} (hleading : Leading (before logits) (List.range n) ranked)
    (hfront : support <+: ranked) (hne : support ≠ []) : token ∈ support := by
  obtain ⟨index, support, rfl⟩ := List.exists_cons_of_ne_nil hne
  obtain ⟨rest, rfl⟩ := hfront
  by_contra hnot
  have hmem : index ∈ index :: (support ++ rest) := List.mem_cons_self
  have hindex := List.mem_range.mp (hleading.mem index hmem)
  have hfirst := h.before_of_ne hindex fun he => hnot (he ▸ List.mem_cons_self)
  have hranks : Ranks (before logits) (List.range n) := ranks_keyed _
  refine hranks.asymm hfirst ?_
  by_cases hranked : token ∈ index :: (support ++ rest)
  · rcases List.mem_cons.mp hranked with rfl | hrest
    · exact absurd List.mem_cons_self hnot
    · exact List.rel_of_pairwise_cons hleading.sorted hrest
  · exact hleading.omitted index hmem token (List.mem_range.mpr h.lt) hranked

/-! ## drawing -/

theorem drawLoop_eq {draw : K} {ps : List K} : ∀ {cumulative : K} {last index k : Nat},
    crossing (draw < ·) cumulative ps = some k →
    drawLoop draw cumulative last index ps = .returned (index + k) := by
  induction ps with
  | nil => exact fun h => nomatch h
  | cons p ps ih =>
    intro cumulative last index k h
    rw [crossing] at h
    rw [drawLoop]
    split at h
    · next hpassed =>
      obtain rfl := Option.some.inj h
      exact if_pos hpassed
    · next hnot =>
      obtain ⟨k, hk, rfl⟩ := Option.map_eq_some_iff.mp h
      refine (if_neg hnot).trans ?_
      rw [ih hk]
      exact congrArg Exit.returned (by omega)

variable [IsStrictOrderedRing K]

theorem drawOf_nonneg (bits : UInt64) : (0 : K) ≤ drawOf bits :=
  div_nonneg (Nat.cast_nonneg _) (by norm_num)

theorem drawOf_lt_one (bits : UInt64) : (drawOf bits : K) < 1 := by
  have hbits : (bits >>> 11).toNat < 9007199254740992 := by
    have hlt := bits.toNat_lt
    rw [UInt64.toNat_shiftRight]
    show bits.toNat >>> 11 < _
    rw [Nat.shiftRight_eq_div_pow]
    omega
  rw [drawOf, div_lt_one (by norm_num)]
  exact_mod_cast hbits

theorem drawLoop_returned {weight : Nat → K} {support : List Nat} {n : Nat} {result : List K}
    (h : Supported weight support n result) (bits : UInt64) :
    ∃ index ∈ support, drawLoop (drawOf bits) 0 0 0 result = .returned index := by
  have hsum : drawOf bits < result.sum := h.sum ▸ drawOf_lt_one bits
  obtain ⟨index, p, hcrossing, hget, hp⟩ := crossing_draw (drawOf_nonneg bits) hsum
  have hlt : index < n := h.length ▸ (List.getElem?_eq_some_iff.mp hget).1
  refine ⟨index, (h.positive index hlt).mp ?_, ?_⟩
  · rwa [List.getD_eq_getElem?_getD, hget]
  · rw [drawLoop_eq hcrossing, Nat.zero_add]

/-! ## the sampler -/

omit [IsStrictOrderedRing K] in
theorem exec_sample {exp : K → K} {random : γ → UInt64 × γ} {s : State γ} {logits : List K}
    (hvalid : s.config_.validate logits.length = .ok ()) :
    (sample exp random (logits.map .finite)).exec s =
      if logits.length > maxTokenId then
        (.error (.invalidArgument "sampler vocabulary exceeds token ID range"), s)
      else match s.config_.strategy with
        | .Greedy => (.ok (maxElement logits % 2 ^ 32), s)
        | .Stochastic => match probabilities exp (logits.map .finite) s.config_ with
          | .ok result => (.ok (drawLoop (drawOf (random s.random_).1) 0 0 0 result).token,
              { s with random_ := (random s.random_).2 })
          | .error e => (.error e, s) := by
  have hlength : (logits.map Extended.finite).length = logits.length := List.length_map _
  show (settle (s.config_.validate (logits.map Extended.finite).length) >>= _).exec s = _
  rw [hlength, hvalid]
  show (throwIf (logits.length > maxTokenId) _ >>= _).exec s = _
  rw [exec_throwIf_bind]
  refine if_congr Iff.rfl rfl ?_
  cases s.config_.strategy with
  | Greedy =>
    show (settle (finiteLogits _) >>= _).exec s = _
    rw [finiteLogits_finite]
    rfl
  | Stochastic =>
    show (settle (probabilities _ _ _) >>= _).exec s = _
    cases probabilities exp (logits.map .finite) s.config_ with
    | ok result => rfl
    | error e => rfl

theorem sample_supported {exp : K → K} (hexp : Exponential exp) (random : γ → UInt64 × γ)
    (s : State γ) (logits : List K) (hvalid : s.config_.validate logits.length = .ok ()) :
    ∃ result ranked support,
      probabilities exp (logits.map .finite) s.config_ = .ok result ∧
      Leading (before logits) (List.range logits.length) ranked ∧
      ranked.length = retained logits.length s.config_ ∧
      Nucleus (weight exp logits s.config_) s.config_.topP.value ranked support ∧
      Supported (weight exp logits s.config_) support logits.length result ∧
      if logits.length > maxTokenId then
        (sample exp random (logits.map .finite)).exec s =
          (.error (.invalidArgument "sampler vocabulary exceeds token ID range"), s)
      else ∃ token ∈ support, match s.config_.strategy with
        | .Greedy => Gives (sample exp random (logits.map .finite)) s token s ∧
            First logits logits.length token
        | .Stochastic => Gives (sample exp random (logits.map .finite)) s token
              { s with random_ := (random s.random_).2 } ∧
            drawLoop (drawOf (random s.random_).1) 0 0 0 result = .returned token := by
  obtain ⟨hn, _, hp, _⟩ := validate_eq_ok hvalid
  obtain ⟨result, ranked, support, hresult, hleading, hlength, hnucleus, hsupported⟩ :=
    probabilities_supported hexp hvalid
  refine ⟨result, ranked, support, hresult, hleading, hlength, hnucleus, hsupported, ?_⟩
  have hexec : (sample exp random (logits.map .finite)).exec s = _ := exec_sample hvalid
  rw [hresult] at hexec
  split
  · next hmany => rw [hexec, if_pos hmany]
  · next hfew =>
    rw [if_neg hfew] at hexec
    have hcast : ∀ token, token < logits.length → token % 2 ^ 32 = token := by
      intro token hlt
      have : logits.length ≤ 2 ^ 32 - 1 := Nat.not_lt.mp hfew
      exact Nat.mod_eq_of_lt (by omega)
    have hnil := hnucleus.ne_nil (by exact_mod_cast hp)
    cases hstrategy : s.config_.strategy with
    | Greedy =>
      have hfirst := first_maxElement hn
      refine ⟨maxElement logits, hfirst.mem hleading hnucleus.isPrefix hnil, ?_, hfirst⟩
      rw [hstrategy] at hexec
      rw [Gives, hexec, hcast _ hfirst.lt]
    | Stochastic =>
      obtain ⟨token, htoken, hloop⟩ := drawLoop_returned hsupported (random s.random_).1
      have hlt := List.mem_range.mp (hleading.mem token (hnucleus.isPrefix.subset htoken))
      refine ⟨token, htoken, ?_, hloop⟩
      rw [hstrategy] at hexec
      have htoken' : (Exit.returned token).token = token := hcast token hlt
      rw [Gives, hexec]
      show (Except.ok (drawLoop _ 0 0 0 result).token, _) = _
      rw [hloop, htoken']

/-! ## the real exponential -/

theorem exponential_exp : Exponential Real.exp := ⟨Real.exp_pos, Real.exp_add⟩

/-- `temperature = 0.5F`, `topK = 2`, `topP = 0.75F` -/
def sampleConfig : SamplingConfig where
  strategy := .Stochastic
  temperature := ⟨0x3f000000⟩
  topK := 2
  topP := ⟨0x3f400000⟩

theorem sample_supported_sample :
    ∃ result ranked support,
      probabilities Real.exp (([1, 5, 5, 2] : List ℝ).map .finite) sampleConfig = .ok result ∧
      Leading (before ([1, 5, 5, 2] : List ℝ)) (List.range 4) ranked ∧ ranked.length = 2 ∧
      Nucleus (weight Real.exp [1, 5, 5, 2] sampleConfig) (sampleConfig.topP.value : ℝ) ranked
        support ∧
      Supported (weight Real.exp [1, 5, 5, 2] sampleConfig) support 4 result ∧
      ∃ token ∈ support, Gives (sample Real.exp (fun seed : UInt64 => (seed, seed + 1))
          (([1, 5, 5, 2] : List ℝ).map .finite)) ⟨sampleConfig, 42⟩ token ⟨sampleConfig, 43⟩ ∧
        drawLoop (drawOf 42) 0 0 0 result = .returned token := by
  obtain ⟨result, ranked, support, hresult, hleading, hlength, hnucleus, hsupported, hsample⟩ :=
    sample_supported exponential_exp (fun seed : UInt64 => (seed, seed + 1)) ⟨sampleConfig, 42⟩
      [1, 5, 5, 2] (by decide +kernel)
  exact ⟨result, ranked, support, hresult, hleading, hlength, hnucleus, hsupported, hsample⟩

/-- `temperature = 2.0F`, which the greedy strategy does not read -/
def greedyConfig : SamplingConfig where
  temperature := ⟨0x40000000⟩

theorem greedy_ignores_temperature : Exponential Real.exp ∧ StrictMono Real.exp ∧
    greedyConfig.validate 2 = .ok () ∧
    ¬ ∃ result c, probabilities Real.exp (([0, 1] : List ℝ).map .finite) greedyConfig = .ok result ∧
      ∀ index < 2, 0 < result.getD index 0 →
        result.getD index 0 =
          c * Real.exp ([0, 1].getD index 0 / (greedyConfig.temperature.value : ℝ)) := by
  have hvalid : greedyConfig.validate ([0, 1] : List ℝ).length = .ok () := by decide +kernel
  refine ⟨exponential_exp, Real.exp_strictMono, hvalid, ?_⟩
  rintro ⟨result, c, hresult, hproportional⟩
  obtain ⟨_, ranked, support, hresult', hleading, hlength, hnucleus, hsupported⟩ :=
    probabilities_supported exponential_exp hvalid
  obtain rfl := Except.ok.inj (hresult'.symm.trans hresult)
  have hweight : ∀ index, 0 < weight Real.exp [0, 1] greedyConfig index := fun _ => Real.exp_pos _
  -- with `topP = 1.0F` both tokens have a probability
  have hone : greedyConfig.topP.value = 1 := by decide +kernel
  rw [hone, Rat.cast_one] at hnucleus
  obtain rfl := hnucleus.eq_whole fun index _ => hweight index
  have hsub : support.Subperm (List.range 2) :=
    List.subperm_of_subset (hleading.nodup (ranks_keyed _)) hleading.mem
  have hperm := hsub.perm_of_length_le (le_of_eq hlength.symm)
  -- and the temperature is not in it
  have htwo : greedyConfig.temperature.value = 2 := by decide +kernel
  have hshare : ∀ index < 2, weight Real.exp [0, 1] greedyConfig index /
      (support.map (weight Real.exp [0, 1] greedyConfig)).sum =
        c * Real.exp (([0, 1] : List ℝ).getD index 0 / 2) := by
    intro index hindex
    have hmem : index ∈ support := hperm.mem_iff.mpr (List.mem_range.mpr hindex)
    have h := hproportional index hindex ((hsupported.positive index hindex).mpr hmem)
    rw [hsupported.proportional index hmem, htwo] at h
    exact_mod_cast h
  have htotal := sum_map_pos (fun index _ => hweight index)
    (List.ne_nil_of_mem (hperm.mem_iff.mpr (List.mem_range.mpr Nat.zero_lt_two)))
  generalize (support.map (weight Real.exp [0, 1] greedyConfig)).sum = total at hshare htotal
  have hzero : Real.exp (0 / 1) / total = c * Real.exp (0 / 2) := hshare 0 (by decide)
  have hlast : Real.exp (1 / 1) / total = c * Real.exp (1 / 2) := hshare 1 (by decide)
  have hhalf : Real.exp (1 / 1) = Real.exp (1 / 2) * Real.exp (1 / 2) := by
    rw [← Real.exp_add]
    norm_num
  rw [zero_div, zero_div, Real.exp_zero, mul_one] at hzero
  rw [hhalf, ← hzero, mul_div_right_comm, mul_comm, mul_comm (1 / total)] at hlast
  have hgreater : 1 < Real.exp (1 / 2) := Real.one_lt_exp_iff.mpr (by norm_num)
  have hsame := mul_left_cancel₀ (Real.exp_pos (1 / 2)).ne' hlast
  rw [div_left_inj' htotal.ne'] at hsame
  exact absurd hsame hgreater.ne'

end HyperMoE.Generation.Sampler
