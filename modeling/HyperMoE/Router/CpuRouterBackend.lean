import Mathlib.Algebra.Order.Field.Basic
import Mathlib.Data.List.Sort
import HyperMoE.Lib.Grid
import HyperMoE.Lib.Outcome
import HyperMoE.Lib.Regroup
import HyperMoE.Memory.Tier
import HyperMoE.Models.ModelManifest
import HyperMoE.Tensor.Numerics

/-!
# Routing

`CpuRouterBackend.cpp`, `RouterDecision.hpp`: the scores of a token for every expert, the best of
them, and the tokens of a batch dealt out to the experts.

* `routeToken`           scores, softmax, the `topK` best, their renormalization;
* `routeBatch`           every token, and the groups of the experts;
* `Decided`              what a decision of `routeToken` looks like;
* `routeBatch_eq_ok`     when a batch is routed, and to what;
* `routeBatch_groups`    the groups hold the assignments of the tokens, each of them once.
-/

namespace HyperMoE.Router

open Lib Lib.Outcome Tensor Models

structure RouterDecision (K : Type) where
  layerId : LayerId
  selectedExpertIds : List ExpertId
  routingScores : List K
  deriving DecidableEq

def RouterDecision.valid {K : Type} (d : RouterDecision K) : Prop :=
  d.selectedExpertIds ≠ [] ∧ d.selectedExpertIds.length = d.routingScores.length

structure ExpertTokenGroup (K : Type) where
  expertId : ExpertId
  tokenIndices : List Nat := []
  routingScores : List K := []
  deriving DecidableEq

structure BatchRouterDecision (K : Type) where
  layerId : LayerId
  tokens : List (RouterDecision K)
  expertGroups : List (ExpertTokenGroup K)
  deriving DecidableEq

def BatchRouterDecision.valid {K : Type} (b : BatchRouterDecision K) : Prop :=
  b.tokens ≠ [] ∧ (∀ token ∈ b.tokens, token.valid ∧ token.layerId = b.layerId) ∧
    ∀ group ∈ b.expertGroups, group.tokenIndices ≠ [] ∧
      group.tokenIndices.length = group.routingScores.length

variable {K : Type} [Field K] [LinearOrder K]

instance (d : RouterDecision K) : Decidable d.valid :=
  inferInstanceAs (Decidable (d.selectedExpertIds ≠ [] ∧ _ = _))

instance (b : BatchRouterDecision K) : Decidable b.valid :=
  inferInstanceAs (Decidable (b.tokens ≠ [] ∧
    (∀ token ∈ b.tokens, token.valid ∧ token.layerId = b.layerId) ∧
    ∀ group ∈ b.expertGroups, group.tokenIndices ≠ [] ∧
      group.tokenIndices.length = group.routingScores.length))

def validateInputs (hiddenStates routerWeights : Grid K) (config : RouterConfig) :
    Except StdError Unit := do
  (config.validate.exec true).1
  throwIf (hiddenStates.columns ≠ routerWeights.rows ∨
      routerWeights.columns ≠ config.expertCount.toNat)
    (.invalid_argument "router tensor dimensions do not match configuration")

/-! ## one token -/

def expertScores (hidden : List K) (weights : Grid K) (hiddenSize expertCount : Nat) : List K :=
  (List.range expertCount).map fun expert =>
    ∑ index ∈ Finset.range hiddenSize, hidden.getD index 0 * weights.get index expert

/-- `*std::max_element(scores.begin(), scores.end())` -/
def maxElement : List K → K
  | [] => 0
  | score :: scores => scores.foldl max score

def softmax (exp : K → K) (scores : List K) : Except StdError (List K) := do
  let maximum := maxElement scores
  let scores := scores.map fun score => exp (score - maximum)
  let denominator := scores.sum
  throwIf (denominator ≤ 0) (.runtime_error "router softmax normalization failed")
  return scores.map fun score => score / denominator

/-- the comparison of the sort: by falling score, and by index where the scores are equal -/
def before (scores : List K) (left right : ExpertId) : Prop :=
  if scores.getD left 0 = scores.getD right 0 then left < right
  else scores.getD right 0 < scores.getD left 0

instance (scores : List K) : DecidableRel (before scores) := fun left right =>
  inferInstanceAs (Decidable (if scores.getD left 0 = scores.getD right 0 then left < right
    else scores.getD right 0 < scores.getD left 0))

/-- `std::partial_sort`, and the sorted part -/
def partialSort (scores : List K) (topK : Nat) (indices : List ExpertId) : List ExpertId :=
  (indices.insertionSort fun left right => ¬ before scores right left).take topK

def renormalize (routingScores : List K) : Except StdError (List K) := do
  let sum := routingScores.sum
  throwIf (sum = 0) (.runtime_error "selected router scores cannot be renormalized")
  return routingScores.map fun score => score / sum

/-- `if (config.renormalizeSelected) ...` -/
def renormalizeIf (selected : Bool) (routingScores : List K) : Except StdError (List K) :=
  if selected then renormalize routingScores else pure routingScores

def normalize (N : Numerics K) (normalization : RoutingNormalization) (scores : List K) :
    Except StdError (List K) :=
  match normalization with
  | .Softmax => softmax N.exp scores
  | .None => pure scores

def routeToken (N : Numerics K) (layerId : LayerId) (hidden : List K) (weights : Grid K)
    (hiddenSize : Nat) (config : RouterConfig) : Except StdError (RouterDecision K) := do
  let scores := expertScores hidden weights hiddenSize config.expertCount.toNat
  let scores ← normalize N config.normalization scores
  let indices := List.range config.expertCount.toNat
  let selectedExpertIds := partialSort scores config.topK.toNat indices
  let routingScores := selectedExpertIds.map fun expert => scores.getD expert 0
  let routingScores ← renormalizeIf config.renormalizeSelected routingScores
  return { layerId, selectedExpertIds, routingScores }

/-! ## a batch -/

/-- a group: an expert, and two lists that grow together -/
def groupOps : GroupOps ExpertId (ExpertTokenGroup K) (Nat × K) where
  fresh expert := { expertId := expert }
  push group a := { group with
    tokenIndices := group.tokenIndices ++ [a.1]
    routingScores := group.routingScores ++ [a.2] }
  key group := group.expertId
  contents group := group.tokenIndices.zip group.routingScores
  sound group := group.tokenIndices.length = group.routingScores.length
  sound_fresh _ := rfl
  sound_push group a h := by rw [List.length_append, List.length_append, h]; rfl
  key_fresh _ := rfl
  contents_fresh _ := rfl
  key_push _ _ := rfl
  contents_push group a h := List.zip_append h

/-- what the decision of a token adds: expert, token and score, rank by rank -/
def tokenAssignments (token : Nat) (d : RouterDecision K) : List (ExpertId × Nat × K) :=
  (d.selectedExpertIds.zip d.routingScores).map fun (expert, score) => (expert, token, score)

def addDecision (groups : Grouped ExpertId (ExpertTokenGroup K)) (token : Nat)
    (decision : RouterDecision K) : Grouped ExpertId (ExpertTokenGroup K) :=
  (tokenAssignments token decision).foldl (fun groups a => groups.place groupOps a.1 a.2) groups

def routeBatch (N : Numerics K) (layerId : LayerId) (hiddenStates routerWeights : Grid K)
    (config : RouterConfig) : Except StdError (BatchRouterDecision K) := do
  validateInputs hiddenStates routerWeights config
  let hiddenSize := hiddenStates.columns
  let (tokens, groups) ← (List.range hiddenStates.rows).foldlM
    (fun (tokens, groups) token => do
      let decision ← routeToken N layerId (hiddenStates.row token) routerWeights hiddenSize config
      return (tokens ++ [decision], addDecision groups token decision)) ([], {})
  return {
    layerId := layerId
    tokens := tokens
    expertGroups := groups.groups.insertionSort fun left right => left.expertId ≤ right.expertId }

/-! ## what a decision looks like -/

/-- what `RouterConfig::validate` lets through -/
theorem returns_validate (config : RouterConfig) : Fallible.Returns config.validate fun _ =>
    config.topK ≠ 0 ∧ config.topK ≤ config.expertCount := by
  refine Fallible.Returns.then fun _ => Fallible.Returns.then fun _ => ?_
  refine (Fallible.returns_throwIf _ _).mono fun _ h => ?_
  rw [not_or] at h
  exact ⟨h.1, UInt64.not_lt.mp h.2⟩

structure Fits (hiddenStates routerWeights : Grid K) (config : RouterConfig) : Prop where
  topK_ne_zero : config.topK.toNat ≠ 0
  topK_le : config.topK.toNat ≤ config.expertCount.toNat
  rows : hiddenStates.columns = routerWeights.rows
  columns : routerWeights.columns = config.expertCount.toNat

omit [Field K] [LinearOrder K] in
theorem fits_of_validateInputs {hiddenStates routerWeights : Grid K} {config : RouterConfig}
    {u : Unit} (h : validateInputs hiddenStates routerWeights config = .ok u) :
    Fits hiddenStates routerWeights config := by
  obtain ⟨v, hconfig, hshapes⟩ := bind_eq_ok.mp h
  obtain ⟨hzero, hle⟩ := returns_validate config true v hconfig
  rw [throwIf_eq_ok, not_or, not_not, not_not] at hshapes
  exact ⟨fun h0 => hzero (UInt64.toNat_inj.mp h0), hle, hshapes.1, hshapes.2⟩

/-- `topK` different experts, with one score each -/
structure Decided (layerId : LayerId) (config : RouterConfig) (d : RouterDecision K) : Prop where
  layerId : d.layerId = layerId
  nodup : d.selectedExpertIds.Nodup
  lt_expertCount : ∀ expert ∈ d.selectedExpertIds, expert < config.expertCount.toNat
  selected : d.selectedExpertIds.length = config.topK.toNat
  scored : d.routingScores.length = config.topK.toNat

section
variable {config : RouterConfig} {scores : List K} {indices : List ExpertId} {topK : Nat}

theorem partialSort_nodup (h : indices.Nodup) : (partialSort scores topK indices).Nodup :=
  ((List.perm_insertionSort _ indices).nodup_iff.mpr h).sublist (List.take_sublist _ _)

theorem mem_of_mem_partialSort {expert : ExpertId}
    (h : expert ∈ partialSort scores topK indices) : expert ∈ indices :=
  (List.mem_insertionSort _).mp (List.mem_of_mem_take h)

theorem length_partialSort (h : topK ≤ indices.length) :
    (partialSort scores topK indices).length = topK := by
  rw [partialSort, List.length_take, List.length_insertionSort, Nat.min_eq_left h]

theorem length_renormalizeIf {selected : Bool} {routingScores routingScores' : List K}
    (h : renormalizeIf selected routingScores = .ok routingScores') :
    routingScores'.length = routingScores.length := by
  cases selected with
  | true =>
    obtain ⟨_, h⟩ := throwIf_bind_eq_ok.mp h
    rw [← pure_eq_ok.mp h, List.length_map]
  | false => rw [← pure_eq_ok.mp h]

theorem decided_of_routeToken {N : Numerics K} {layerId : LayerId} {hidden : List K}
    {weights : Grid K} {hiddenSize : Nat} {d : RouterDecision K}
    (hle : config.topK.toNat ≤ config.expertCount.toNat)
    (h : routeToken N layerId hidden weights hiddenSize config = .ok d) :
    Decided layerId config d := by
  obtain ⟨scores, _, h⟩ := bind_eq_ok.mp h
  have hselected : (partialSort scores config.topK.toNat
      (List.range config.expertCount.toNat)).length = config.topK.toNat := by
    apply length_partialSort
    rwa [List.length_range]
  obtain ⟨routingScores, hscores, h⟩ := bind_eq_ok.mp h
  obtain rfl := pure_eq_ok.mp h
  refine ⟨rfl, partialSort_nodup List.nodup_range, fun expert hexpert => ?_, hselected, ?_⟩
  · exact List.mem_range.mp (mem_of_mem_partialSort hexpert)
  · show routingScores.length = _
    rw [length_renormalizeIf hscores, List.length_map, hselected]

end

/-! ## what the groups hold -/

/-- every assignment of a batch: expert, token and score, token by token and rank by rank -/
def assignments (tokens : List (RouterDecision K)) : List (ExpertId × Nat × K) :=
  ((List.range tokens.length).zip tokens).flatMap fun p => tokenAssignments p.1 p.2

/-- the assignments that a group holds -/
def ExpertTokenGroup.assignments (group : ExpertTokenGroup K) : List (ExpertId × Nat × K) :=
  (group.tokenIndices.zip group.routingScores).map (Prod.mk group.expertId)

omit [Field K] [LinearOrder K] in
theorem mem_assignments {tokens : List (RouterDecision K)} {a : ExpertId × Nat × K}
    (h : a ∈ assignments tokens) : ∃ d ∈ tokens, a.1 ∈ d.selectedExpertIds ∧
      a.2.1 < tokens.length := by
  obtain ⟨⟨token, d⟩, hp, ha⟩ := List.mem_flatMap.mp h
  obtain ⟨htoken, hd⟩ := List.of_mem_zip hp
  obtain ⟨⟨expert, score⟩, hq, rfl⟩ := List.mem_map.mp ha
  exact ⟨d, hd, (List.of_mem_zip hq).1, List.mem_range.mp htoken⟩

omit [Field K] [LinearOrder K] in
/-- no expert gets a token twice -/
theorem nodup_assignments {layerId : LayerId} {config : RouterConfig}
    {tokens : List (RouterDecision K)} (h : ∀ d ∈ tokens, Decided layerId config d) :
    ((assignments tokens).map fun a => (a.1, a.2.1)).Nodup := by
  rw [assignments, List.map_flatMap, List.nodup_flatMap]
  constructor
  · rintro ⟨token, d⟩ hp
    have hfst : ((tokenAssignments token d).map fun a => (a.1, a.2.1)) =
        ((d.selectedExpertIds.zip d.routingScores).map Prod.fst).map fun expert =>
          (expert, token) := by
      rw [tokenAssignments, List.map_map, List.map_map]
      rfl
    rw [hfst]
    refine List.Nodup.map (fun _ _ heq => (Prod.mk.inj heq).1) ?_
    have hd := h d (List.of_mem_zip hp).2
    rw [List.map_fst_zip (by rw [hd.selected, hd.scored])]
    exact hd.nodup
  · have hfst : (((List.range tokens.length).zip tokens).map Prod.fst).Nodup := by
      rw [List.map_fst_zip (by rw [List.length_range])]
      exact List.nodup_range
    refine (List.pairwise_map.mp hfst).imp fun {p q} hne => ?_
    intro b hb hb'
    obtain ⟨a, ha, rfl⟩ := List.mem_map.mp hb
    obtain ⟨a', ha', heq⟩ := List.mem_map.mp hb'
    obtain ⟨x, -, rfl⟩ := List.mem_map.mp ha
    obtain ⟨x', -, rfl⟩ := List.mem_map.mp ha'
    exact hne (Prod.mk.inj heq).2.symm

omit [Field K] [LinearOrder K] in
theorem foldl_addDecision (ps : List (Nat × RouterDecision K))
    (groups : Grouped ExpertId (ExpertTokenGroup K)) :
    ps.foldl (fun groups p => addDecision groups p.1 p.2) groups =
      groups.placeAll groupOps (ps.flatMap fun p => tokenAssignments p.1 p.2) := by
  unfold Grouped.placeAll
  rw [List.foldl_flatMap]
  rfl

/-- the loop of `routeBatch`, with what decides a token -/
def decideAll (layerId : LayerId) (tokenCount : Nat)
    (decide : Nat → Except StdError (RouterDecision K)) :
    Except StdError (BatchRouterDecision K) := do
  let (tokens, groups) ← (List.range tokenCount).foldlM
    (fun (tokens, groups) token => do
      let decision ← decide token
      return (tokens ++ [decision], addDecision groups token decision)) ([], {})
  return {
    layerId := layerId
    tokens := tokens
    expertGroups := groups.groups.insertionSort fun left right => left.expertId ≤ right.expertId }

section
variable {N : Numerics K} {layerId : LayerId} {hiddenStates routerWeights : Grid K}
  {config : RouterConfig} {b : BatchRouterDecision K}

omit [Field K] [LinearOrder K] in
theorem decideAll_eq_ok {tokenCount : Nat} {decide : Nat → Except StdError (RouterDecision K)} :
    decideAll layerId tokenCount decide = .ok b ↔
      collect decide (List.range tokenCount) = .ok b.tokens ∧
      b.layerId = layerId ∧
      b.expertGroups = (({} : Grouped ExpertId (ExpertTokenGroup K)).placeAll groupOps
        (assignments b.tokens)).groups.insertionSort fun left right =>
          left.expertId ≤ right.expertId := by
  have hloop := foldlM_collect decide addDecision (List.range tokenCount) []
    ({} : Grouped ExpertId (ExpertTokenGroup K))
  unfold decideAll
  constructor
  · intro h
    obtain ⟨⟨tokens, groups⟩, hfold, h⟩ := bind_eq_ok.mp h
    obtain ⟨tokens', htokens, hpair⟩ := bind_eq_ok.mp (hloop.symm.trans hfold)
    obtain ⟨rfl, rfl⟩ := Prod.mk.inj (pure_eq_ok.mp hpair)
    obtain rfl := pure_eq_ok.mp h
    have hlength := (collect_range_eq_ok.mp htokens).1
    refine ⟨htokens, rfl, ?_⟩
    show List.insertionSort _ _ = _
    rw [foldl_addDecision, List.nil_append, assignments, hlength]
  · rintro ⟨htokens, rfl, hgroups⟩
    refine bind_eq_ok.mpr ⟨([] ++ b.tokens,
      ((List.range tokenCount).zip b.tokens).foldl
        (fun groups p => addDecision groups p.1 p.2) {}), hloop.trans ?_, ?_⟩
    · rw [htokens]
      rfl
    · have hlength := (collect_range_eq_ok.mp htokens).1
      rw [assignments, hlength, ← foldl_addDecision] at hgroups
      show Except.ok (BatchRouterDecision.mk b.layerId b.tokens _) = _
      rw [← hgroups]

theorem routeBatch_eq_ok :
    routeBatch N layerId hiddenStates routerWeights config = .ok b ↔
      validateInputs hiddenStates routerWeights config = .ok () ∧
      collect (fun token => routeToken N layerId (hiddenStates.row token) routerWeights
        hiddenStates.columns config) (List.range hiddenStates.rows) = .ok b.tokens ∧
      b.layerId = layerId ∧
      b.expertGroups = (({} : Grouped ExpertId (ExpertTokenGroup K)).placeAll groupOps
        (assignments b.tokens)).groups.insertionSort fun left right =>
          left.expertId ≤ right.expertId := by
  rw [← decideAll_eq_ok]
  constructor
  · intro h
    obtain ⟨u, hinputs, h⟩ := bind_eq_ok.mp h
    exact ⟨hinputs, h⟩
  · rintro ⟨hinputs, h⟩
    exact bind_eq_ok.mpr ⟨(), hinputs, h⟩

theorem routeBatch_decided (h : routeBatch N layerId hiddenStates routerWeights config = .ok b) :
    b.tokens.length = hiddenStates.rows ∧ ∀ d ∈ b.tokens, Decided layerId config d := by
  obtain ⟨hinputs, htokens, -, -⟩ := routeBatch_eq_ok.mp h
  obtain ⟨hlength, hget⟩ := collect_range_eq_ok.mp htokens
  refine ⟨hlength, fun d hd => ?_⟩
  obtain ⟨i, hi, rfl⟩ := List.getElem_of_mem hd
  exact decided_of_routeToken (fits_of_validateInputs hinputs).topK_le (hget i hi)

/-- the groups of a routed batch: one of each selected expert, in the order of their ids -/
structure GroupsOf (tokens : List (RouterDecision K)) (groups : List (ExpertTokenGroup K)) :
    Prop where
  nodup : (groups.map ExpertTokenGroup.expertId).Nodup
  filled : ∀ group ∈ groups, group.tokenIndices ≠ []
  paired : ∀ group ∈ groups, group.tokenIndices.length = group.routingScores.length
  /-- each assignment is in the groups, once -/
  assigned : (groups.flatMap ExpertTokenGroup.assignments).Perm (assignments tokens)

omit [Field K] [LinearOrder K] in
theorem GroupsOf.tokens_eq {tokens : List (RouterDecision K)} {groups : List (ExpertTokenGroup K)}
    {group : ExpertTokenGroup K} (h : GroupsOf tokens groups) (hgroup : group ∈ groups) :
    group.assignments.map (fun a => a.2.1) = group.tokenIndices := by
  rw [ExpertTokenGroup.assignments, List.map_map]
  exact List.map_fst_zip (by rw [h.paired group hgroup])

omit [Field K] [LinearOrder K] in
theorem GroupsOf.token_lt {tokens : List (RouterDecision K)} {groups : List (ExpertTokenGroup K)}
    {group : ExpertTokenGroup K} (h : GroupsOf tokens groups) (hgroup : group ∈ groups) {token : Nat}
    (htoken : token ∈ group.tokenIndices) : token < tokens.length := by
  rw [← h.tokens_eq hgroup] at htoken
  obtain ⟨a, ha, rfl⟩ := List.mem_map.mp htoken
  obtain ⟨-, -, -, hlt⟩ := mem_assignments (h.assigned.mem_iff.mp
    (List.mem_flatMap.mpr ⟨group, hgroup, ha⟩))
  exact hlt

omit [Field K] [LinearOrder K] in
/-- the experts that have a group are those that a token selected -/
theorem GroupsOf.mem_experts {tokens : List (RouterDecision K)}
    {groups : List (ExpertTokenGroup K)} (h : GroupsOf tokens groups)
    (hdecided : ∀ d ∈ tokens, Decided layerId config d) {expert : ExpertId} :
    (∃ group ∈ groups, group.expertId = expert) ↔ ∃ d ∈ tokens, expert ∈ d.selectedExpertIds := by
  constructor
  · rintro ⟨group, hgroup, rfl⟩
    have htokens := h.tokens_eq hgroup
    obtain ⟨token, htoken⟩ := List.exists_mem_of_ne_nil _ (h.filled group hgroup)
    rw [← htokens] at htoken
    obtain ⟨a, ha, -⟩ := List.mem_map.mp htoken
    obtain ⟨d, hd, hmem, -⟩ := mem_assignments (h.assigned.mem_iff.mp
      (List.mem_flatMap.mpr ⟨group, hgroup, ha⟩))
    obtain ⟨p, -, rfl⟩ := List.mem_map.mp ha
    exact ⟨d, hd, hmem⟩
  · rintro ⟨d, hd, hexpert⟩
    obtain ⟨i, hi, rfl⟩ := List.getElem_of_mem hd
    obtain ⟨j, hj, rfl⟩ := List.getElem_of_mem hexpert
    have hdec := hdecided _ hd
    have hj' : j < tokens[i].routingScores.length := by
      rw [hdec.scored, ← hdec.selected]
      exact hj
    have hpair : (i, tokens[i]) ∈ (List.range tokens.length).zip tokens := by
      have hzip : i < ((List.range tokens.length).zip tokens).length := by
        rwa [List.length_zip, List.length_range, Nat.min_self]
      have hget := List.getElem_mem hzip
      rwa [List.getElem_zip, List.getElem_range] at hget
    have hzip : j < (tokens[i].selectedExpertIds.zip tokens[i].routingScores).length := by
      rw [List.length_zip]
      exact Nat.lt_min.mpr ⟨hj, hj'⟩
    have hassigned : (tokens[i].selectedExpertIds[j], i, tokens[i].routingScores[j]) ∈
        assignments tokens := by
      refine List.mem_flatMap.mpr ⟨_, hpair, List.mem_map.mpr ⟨_, List.getElem_mem hzip, ?_⟩⟩
      rw [List.getElem_zip]
    obtain ⟨group, hgroup, hmem⟩ := List.mem_flatMap.mp (h.assigned.mem_iff.mpr hassigned)
    obtain ⟨p, -, hp⟩ := List.mem_map.mp hmem
    exact ⟨group, hgroup, congrArg Prod.fst hp⟩

theorem routeBatch_groups (h : routeBatch N layerId hiddenStates routerWeights config = .ok b) :
    GroupsOf b.tokens b.expertGroups := by
  obtain ⟨-, -, -, hgroups⟩ := routeBatch_eq_ok.mp h
  have hplaced : Grouped.WellPlaced groupOps (({} : Grouped ExpertId
      (ExpertTokenGroup K)).placeAll groupOps (assignments b.tokens)) :=
    Grouped.wellPlaced_empty.placeAll _
  have hentries := @Grouped.placeAll_entries _ _ _ _ groupOps _ Grouped.wellPlaced_empty
    (assignments b.tokens)
  have hperm := List.perm_insertionSort
    (fun left right : ExpertTokenGroup K => left.expertId ≤ right.expertId)
    (({} : Grouped ExpertId (ExpertTokenGroup K)).placeAll groupOps (assignments b.tokens)).groups
  rw [← hgroups] at hperm
  refine ⟨?_, fun group hgroup => ?_, fun group hgroup => ?_, ?_⟩
  · exact (hperm.map _).nodup_iff.mpr hplaced.nodup
  · intro hnil
    refine hplaced.filled group (hperm.mem_iff.mp hgroup) ?_
    show group.tokenIndices.zip group.routingScores = []
    rw [hnil, List.zip_nil_left]
  · exact hplaced.sound group (hperm.mem_iff.mp hgroup)
  · exact (hperm.flatMap_right _).trans hentries

end

end HyperMoE.Router
