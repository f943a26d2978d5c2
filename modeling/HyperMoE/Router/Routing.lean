import Mathlib.Algebra.BigOperators.Ring.List
import Mathlib.Algebra.Order.Field.Basic
import Mathlib.Algebra.Order.Ring.Rat
import Mathlib.Data.Prod.Lex
import HyperMoE.Lib.Distribution
import HyperMoE.Lib.Ranking
import HyperMoE.Router.CpuRouterBackend

/-!
# Routing a batch, token by token and expert by expert

* `route`                    `CpuRouterBackend::route`, for one row;
* `Selected`                 a decision lists the first experts in the order of the scores;
* `selected_of_routeToken`   the partial sort and the renormalization give such a decision;
* `Inverse`                  the groups turn the decisions around;
* `inverse_of_decided`       the grouping does;
* `routeBatch_consistent`    a batch against its rows.
-/

namespace HyperMoE.Router

open Lib Lib.Outcome Tensor Models

section
variable {K : Type} [Field K] [LinearOrder K]

/-- the buffer that holds row `r` alone -/
def rowGrid (g : Grid K) (r : Nat) : Grid K := Grid.generate 1 g.columns fun _ c => g.get r c

/-- a hidden state of rank one is reshaped to one row before -/
def route (N : Numerics K) (layerId : LayerId) (hiddenState routerWeights : Grid K)
    (config : RouterConfig) : Except StdError (RouterDecision K) := do
  validateInputs hiddenState routerWeights config
  throwIf (hiddenState.rows ≠ 1)
    (.invalid_argument "single-token route received multiple tokens")
  routeToken N layerId (hiddenState.row 0) routerWeights hiddenState.columns config

/-! ## one decision -/

/-- the order of the sort as that of a key -/
def scoreKey (scores : List K) (expert : ExpertId) : Kᵒᵈ ×ₗ ExpertId :=
  toLex (OrderDual.toDual (scores.getD expert 0), expert)

theorem before_iff (scores : List K) (a b : ExpertId) :
    before scores a b ↔ scoreKey scores a < scoreKey scores b := by
  unfold before scoreKey
  rw [Prod.Lex.toLex_lt_toLex]
  generalize scores.getD a 0 = x
  generalize scores.getD b 0 = y
  simp only [OrderDual.toDual_lt_toDual, OrderDual.toDual_inj]
  by_cases h : x = y
  · simp [h]
  · simp [h]

omit [LinearOrder K] in
theorem scoreKey_inj {scores : List K} {a b : ExpertId}
    (h : scoreKey scores a = scoreKey scores b) : a = b :=
  congrArg (fun k => (ofLex k).2) h

theorem ranks_before (scores : List K) (pool : List ExpertId) : Ranks (before scores) pool :=
  .of_key (before_iff scores) fun _ _ _ _ => scoreKey_inj

theorem leading_partialSort (scores : List K) {indices : List ExpertId} (h : indices.Nodup)
    (topK : Nat) : Leading (before scores) indices (partialSort scores topK indices) :=
  leading_insertionSort (before_iff scores) (fun _ _ _ _ => scoreKey_inj) h topK

structure Selected (scores : List K) (config : RouterConfig) (d : RouterDecision K) : Prop where
  leading : Leading (before scores) (List.range config.expertCount.toNat) d.selectedExpertIds
  length : d.selectedExpertIds.length = config.topK.toNat
  aligned : d.routingScores =
    if config.renormalizeSelected then
      d.selectedExpertIds.map fun expert =>
        scores.getD expert 0 / (d.selectedExpertIds.map fun expert => scores.getD expert 0).sum
    else d.selectedExpertIds.map fun expert => scores.getD expert 0
  total : config.renormalizeSelected = true → d.routingScores.sum = 1

omit [LinearOrder K] in
theorem sum_renormalized {scores : List K} {l : List ExpertId}
    (h : (l.map fun expert => scores.getD expert 0).sum ≠ 0) :
    (l.map fun expert =>
      scores.getD expert 0 / (l.map fun expert => scores.getD expert 0).sum).sum = 1 := by
  rw [Lib.sum_map_div, div_self h]

theorem selected_of_routeToken {N : Numerics K} {layerId : LayerId} {hidden : List K}
    {weights : Grid K} {hiddenSize : Nat} {config : RouterConfig} {d : RouterDecision K}
    (hle : config.topK.toNat ≤ config.expertCount.toNat)
    (h : routeToken N layerId hidden weights hiddenSize config = .ok d) :
    ∃ scores, normalize N config.normalization
        (expertScores hidden weights hiddenSize config.expertCount.toNat) = .ok scores ∧
      Selected scores config d := by
  have hlength := (decided_of_routeToken hle h).selected
  obtain ⟨scores, hscores, h⟩ := bind_eq_ok.mp h
  obtain ⟨routingScores, hrouting, h⟩ := bind_eq_ok.mp h
  obtain rfl := pure_eq_ok.mp h
  refine ⟨scores, hscores, leading_partialSort scores List.nodup_range _, hlength, ?_, ?_⟩
  · cases hrenormalize : config.renormalizeSelected with
    | false =>
      rw [hrenormalize] at hrouting
      exact (pure_eq_ok.mp hrouting).symm
    | true =>
      rw [hrenormalize] at hrouting
      obtain ⟨-, hrouting⟩ := throwIf_bind_eq_ok.mp hrouting
      rw [← pure_eq_ok.mp hrouting, if_pos rfl, List.map_map]
      rfl
  · intro hrenormalize
    rw [hrenormalize] at hrouting
    obtain ⟨hsum, hrouting⟩ := throwIf_bind_eq_ok.mp hrouting
    rw [← pure_eq_ok.mp hrouting, List.map_map]
    exact sum_renormalized hsum

/-! ## the groups -/

/-- the groups are the decisions read by expert -/
structure Inverse (tokens : List (RouterDecision K)) (groups : List (ExpertTokenGroup K)) : Prop where
  sorted : (groups.map ExpertTokenGroup.expertId).Pairwise (· < ·)
  paired : ∀ group ∈ groups, group.tokenIndices.length = group.routingScores.length
  filled : ∀ group ∈ groups, group.tokenIndices ≠ []
  increasing : ∀ group ∈ groups, group.tokenIndices.Pairwise (· < ·)
  /-- each expert, token and score of the decisions is in the groups -/
  assigned : (groups.flatMap ExpertTokenGroup.assignments).Perm (assignments tokens)
  once : ((assignments tokens).map fun a => (a.1, a.2.1)).Nodup

omit [Field K] [LinearOrder K] in
/-- of one expert, the tokens come in order -/
theorem assignments_increasing {layerId : LayerId} {config : RouterConfig}
    {tokens : List (RouterDecision K)} (h : ∀ d ∈ tokens, Decided layerId config d) :
    (assignments tokens).Pairwise fun a b => a.1 = b.1 → a.2.1 < b.2.1 := by
  unfold assignments
  rw [List.pairwise_flatMap]
  constructor
  · rintro ⟨token, d⟩ hp
    have hd := h d (List.of_mem_zip hp).2
    have hexperts : (d.selectedExpertIds.zip d.routingScores).Pairwise fun a b => a.1 ≠ b.1 := by
      refine List.pairwise_map.mp ?_
      rw [List.map_fst_zip (by rw [hd.selected, hd.scored])]
      exact hd.nodup
    exact List.pairwise_map.mpr (hexperts.imp fun hne he => absurd he hne)
  · have hfst : (((List.range tokens.length).zip tokens).map Prod.fst).Pairwise (· < ·) := by
      rw [List.map_fst_zip (by rw [List.length_range])]
      exact List.pairwise_lt_range
    refine (List.pairwise_map.mp hfst).imp fun {p q} hlt => ?_
    intro a ha b hb _
    obtain ⟨x, -, rfl⟩ := List.mem_map.mp ha
    obtain ⟨y, -, rfl⟩ := List.mem_map.mp hb
    exact hlt

variable {N : Numerics K} {layerId : LayerId} {hiddenStates routerWeights : Grid K}
  {config : RouterConfig} {b : BatchRouterDecision K}

omit [Field K] [LinearOrder K] in
/-- the groups that the table makes of decisions, sorted -/
theorem inverse_of_decided {tokens : List (RouterDecision K)} {groups : List (ExpertTokenGroup K)}
    (hdecided : ∀ d ∈ tokens, Decided layerId config d) (hgroups : GroupsOf tokens groups)
    (hsorted : groups = (({} : Grouped ExpertId (ExpertTokenGroup K)).placeAll groupOps
      (assignments tokens)).groups.insertionSort fun left right => left.expertId ≤ right.expertId) :
    Inverse tokens groups := by
  refine ⟨?_, hgroups.paired, hgroups.filled, fun group hgroup => ?_, hgroups.assigned,
    nodup_assignments hdecided⟩
  · have htotal : Std.Total fun left right : ExpertTokenGroup K => left.expertId ≤ right.expertId :=
      ⟨fun a b => Nat.le_total a.expertId b.expertId⟩
    have htrans : IsTrans (ExpertTokenGroup K) fun left right => left.expertId ≤ right.expertId :=
      ⟨fun _ _ _ => Nat.le_trans⟩
    have hle : groups.Pairwise fun left right => left.expertId ≤ right.expertId :=
      hsorted ▸ List.pairwise_insertionSort _ _
    refine List.pairwise_map.mpr ((hle.and (List.pairwise_map.mp hgroups.nodup)).imp fun hab => ?_)
    exact Nat.lt_of_le_of_ne hab.1 hab.2
  · have hfollows : Grouped.Follows groupOps _ ([] ++ assignments tokens) :=
      Grouped.Follows.placeAll Grouped.wellPlaced_empty Grouped.follows_empty (assignments tokens)
    have hmem : group ∈ (({} : Grouped ExpertId (ExpertTokenGroup K)).placeAll groupOps
        (assignments tokens)).groups := by
      rw [hsorted] at hgroup
      exact (List.mem_insertionSort _).mp hgroup
    have hcontents := hfollows.contents group hmem
    have htokens : group.tokenIndices = ((group.tokenIndices.zip group.routingScores).map Prod.fst) :=
      (List.map_fst_zip (by rw [hgroups.paired group hgroup])).symm
    rw [htokens]
    show ((groupOps.contents group).map Prod.fst).Pairwise (· < ·)
    rw [hcontents, List.map_map, List.pairwise_map]
    refine ((assignments_increasing hdecided).filter _).imp_of_mem fun {a b} ha hb hab => ?_
    have hakey := of_decide_eq_true (List.mem_filter.mp ha).2
    have hbkey := of_decide_eq_true (List.mem_filter.mp hb).2
    exact hab (hakey.trans hbkey.symm)

/-! ## a batch and its rows -/

omit [LinearOrder K] in
theorem row_rowGrid (g : Grid K) (r : Nat) : (rowGrid g r).row 0 = g.row r := by
  refine List.ext_getElem ?_ fun c hc _ => ?_
  · rw [Grid.length_row, Grid.length_row]
    rfl
  · have hlt : c < g.columns := by rwa [Grid.length_row] at hc
    have hrow := Grid.getD_row (g := rowGrid g r) (r := 0) hlt
    have hrow' := Grid.getD_row (g := g) (r := r) hlt
    rw [List.getD_eq_getElem _ _ hc] at hrow
    rw [List.getD_eq_getElem _ _ (by rwa [Grid.length_row])] at hrow'
    rw [hrow, hrow']
    exact Grid.get_generate _ Nat.one_pos hlt

/-- a row alone passes the same checks -/
theorem route_row (i : Nat) {d : RouterDecision K} :
    route N layerId (rowGrid hiddenStates i) routerWeights config = .ok d ↔
      validateInputs hiddenStates routerWeights config = .ok () ∧
      routeToken N layerId (hiddenStates.row i) routerWeights hiddenStates.columns config =
        .ok d := by
  unfold route
  rw [bind_eq_ok, row_rowGrid]
  constructor
  · rintro ⟨u, hinputs, h⟩
    exact ⟨hinputs, (throwIf_bind_eq_ok.mp h).2⟩
  · rintro ⟨hinputs, h⟩
    exact ⟨(), hinputs, throwIf_bind_eq_ok.mpr ⟨fun hrows => hrows rfl, h⟩⟩

variable (N layerId hiddenStates routerWeights config) in
theorem routeBatch_consistent :
    ((∃ b, routeBatch N layerId hiddenStates routerWeights config = .ok b) ↔
      validateInputs hiddenStates routerWeights config = .ok () ∧
      ∀ i < hiddenStates.rows,
        ∃ d, route N layerId (rowGrid hiddenStates i) routerWeights config = .ok d) ∧
    ∀ b, routeBatch N layerId hiddenStates routerWeights config = .ok b →
      b.layerId = layerId ∧ b.tokens.length = hiddenStates.rows ∧
      (∀ i (hi : i < b.tokens.length),
        route N layerId (rowGrid hiddenStates i) routerWeights config = .ok b.tokens[i] ∧
        Decided layerId config b.tokens[i] ∧
        ∃ scores, normalize N config.normalization (expertScores (hiddenStates.row i) routerWeights
            hiddenStates.columns config.expertCount.toNat) = .ok scores ∧
          Selected scores config b.tokens[i]) ∧
      Inverse b.tokens b.expertGroups := by
  refine ⟨⟨?_, ?_⟩, fun b h => ?_⟩
  · rintro ⟨b, h⟩
    obtain ⟨hinputs, htokens, -, -⟩ := routeBatch_eq_ok.mp h
    obtain ⟨hlength, hget⟩ := collect_range_eq_ok.mp htokens
    refine ⟨hinputs, fun i hi => ⟨_, (route_row i).mpr ⟨hinputs, hget i (hlength ▸ hi)⟩⟩⟩
  · rintro ⟨hinputs, hrows⟩
    have htokens : ∃ tokens, collect (fun token => routeToken N layerId (hiddenStates.row token)
        routerWeights hiddenStates.columns config) (List.range hiddenStates.rows) = .ok tokens :=
      exists_collect fun i hi =>
        (hrows i (List.mem_range.mp hi)).imp fun d hd => ((route_row i).mp hd).2
    obtain ⟨tokens, htokens⟩ := htokens
    exact ⟨⟨layerId, tokens, (({} : Grouped ExpertId (ExpertTokenGroup K)).placeAll groupOps
      (assignments tokens)).groups.insertionSort fun left right => left.expertId ≤ right.expertId⟩,
      routeBatch_eq_ok.mpr ⟨hinputs, htokens, rfl, rfl⟩⟩
  · obtain ⟨hinputs, htokens, hlayer, hgroups⟩ := routeBatch_eq_ok.mp h
    obtain ⟨hlength, hdecided⟩ := routeBatch_decided h
    refine ⟨hlayer, hlength, fun i hi => ?_,
      inverse_of_decided hdecided (routeBatch_groups h) hgroups⟩
    have htoken := (collect_range_eq_ok.mp htokens).2 i hi
    exact ⟨(route_row i).mpr ⟨hinputs, htoken⟩, hdecided _ (List.getElem_mem hi),
      selected_of_routeToken (fits_of_validateInputs hinputs).topK_le htoken⟩

end

/-! Two tokens with tied scores for three experts. -/

def sampleNumerics : Numerics ℚ where
  exp x := 1 + x * x
  sqrt x := x
  cos _ := 1
  sin _ := 0
  erf x := x
  pow base _ := base
  ofFloat x := x.bits.toNat

def sampleConfig : RouterConfig :=
  { expertCount := 3, topK := 2, normalization := .None, renormalizeSelected := true }

def sampleRouted : Except StdError (BatchRouterDecision ℚ) :=
  routeBatch sampleNumerics 4 ⟨2, 1, [1, 2], rfl⟩ ⟨1, 3, [1, 3, 1], rfl⟩ sampleConfig

theorem routeBatch_consistent_sample :
    sampleRouted.toOption.map (fun b => b.tokens.map RouterDecision.selectedExpertIds) =
      some [[1, 0], [1, 0]] ∧
    ∀ b, sampleRouted = .ok b → Inverse b.tokens b.expertGroups := by
  refine ⟨by decide +kernel, fun b hb => ?_⟩
  exact ((routeBatch_consistent sampleNumerics 4 ⟨2, 1, [1, 2], rfl⟩ ⟨1, 3, [1, 3, 1], rfl⟩
    sampleConfig).2 b hb).2.2.2

end HyperMoE.Router
