import Mathlib.Algebra.Order.BigOperators.Group.List
import HyperMoE.Lib.Extended
import HyperMoE.Lib.Launch
import HyperMoE.Router.Routing

/-!
# Routing on the device

`routerTopKKernel` of `CudaKernels.cu`, `CudaTensorBackend::routeTopK` from the logits on, and
`makeDecision` of `CudaRouterBackend.cpp`.  A thread has a token: it searches its row once for each
rank, for the best expert that it has not selected yet.

* `routerTopKKernel`    one thread;
* `routeTopK`           all of them, in any order, and the check of what they leave;
* `makeDecision`        the decisions and the groups from the two arrays;
* `routeLogits`         the selection of the host, from the logits on;
* `scan_spec`           a search finds the first of the rest;
* `device_agrees`       device and host.
-/

namespace HyperMoE.Router

open Lib Lib.Outcome Lib.Extended Tensor Models

section
variable {K : Type} [Field K] [LinearOrder K]

/-! ## the kernel -/

/-- the arrays of the kernel, with a row of `topK` elements for each token -/
structure SelectionArrays (K : Type) where
  selectedIds : Grid ExpertId
  selectedScores : Grid (Extended K)

/-- the row of the thread, in place -/
def softmaxRow (exp : K → K) (row : List K) : List (Extended K) :=
  let maximum := maxElement row
  let row := row.map fun logit => exp (logit - maximum)
  row.map fun score => div (finite score) (finite row.sum)

/-- `if (softmax) ...` -/
def normalizeRow (exp : K → K) (softmax : Bool) (row : List K) : List (Extended K) :=
  if softmax then softmaxRow exp row else row.map finite

def scanStep (row : List (Extended K)) (alreadySelected : ExpertId → Bool)
    (s : ExpertId × Extended K) (expert : ExpertId) : ExpertId × Extended K :=
  let (best, bestScore) := s
  if !alreadySelected expert && (less bestScore (row.getD expert 0) ||
      (same (row.getD expert 0) bestScore && expert < best)) then (expert, row.getD expert 0)
  else (best, bestScore)

/-- one search: the best expert, and its score -/
def scan (row : List (Extended K)) (experts : Nat) (alreadySelected : ExpertId → Bool) :
    ExpertId × Extended K :=
  (List.range experts).foldl (scanStep row alreadySelected) (experts, infinite true)

/-- one rank; the second component is `selectedSum` -/
def selectRank (row : List (Extended K)) (experts token : Nat)
    (s : SelectionArrays K × Extended K) (rank : Nat) : SelectionArrays K × Extended K :=
  let alreadySelected expert :=
    (List.range rank).any fun prior => s.1.selectedIds.get token prior == expert
  let (best, bestScore) := scan row experts alreadySelected
  ({ selectedIds := s.1.selectedIds.modify token rank fun _ => best % 2 ^ 32
     selectedScores := s.1.selectedScores.modify token rank fun _ => bestScore },
    add s.2 bestScore)

def routerTopKKernel (exp : K → K) (logits : Grid K) (topK : Nat) (softmax renormalize : Bool)
    (token : Nat) (out : SelectionArrays K) : SelectionArrays K :=
  if token ≥ logits.rows then out else
  let row := normalizeRow exp softmax (logits.row token)
  let (out, selectedSum) :=
    (List.range topK).foldl (selectRank row logits.columns token) (out, finite 0)
  if renormalize && selectedSum.isFinite && !same selectedSum 0 then
    { out with selectedScores :=
        out.selectedScores.modifyRow token fun _ score => div score selectedSum }
  else if renormalize then
    { out with selectedScores := out.selectedScores.modify token 0 fun _ => nan }
  else out

/-! ## what the host makes of it -/

/-- `RoutingSelection`: the arrays in host memory -/
structure RoutingSelection (K : Type) where
  expertIds : List ExpertId
  scores : List K

/-- `if (!std::isfinite(value)) throw ...;` -/
def finiteScore : Extended K → Except StdError K
  | finite x => pure x
  | _ => throw (.runtime_error "CUDA router produced non-finite scores")

/-- from the logits on; the threads come in the order of the schedule, and `arrays` is what the new
buffers hold -/
def routeTopK (N : Numerics K) (logits : Grid K) (topK : Nat) (softmax renormalize : Bool)
    (schedule : List Nat) (arrays : SelectionArrays K) : Except StdError (RoutingSelection K) := do
  match launch (fun token out =>
      some (routerTopKKernel N.exp logits topK softmax renormalize token out)) schedule arrays with
  | none => throw (.runtime_error "CUDA router top-k kernel")
  | some arrays =>
    let scores ← collect finiteScore arrays.selectedScores.values
    return { expertIds := arrays.selectedIds.values, scores }

/-- one rank of `makeDecision`, on the decision of the token and the groups -/
def takeRank (config : RouterConfig) (selection : RoutingSelection K) (token : Nat)
    (s : RouterDecision K × Grouped ExpertId (ExpertTokenGroup K)) (rank : Nat) :
    Except StdError (RouterDecision K × Grouped ExpertId (ExpertTokenGroup K)) := do
  let offset := token * config.topK.toNat + rank
  let expert := selection.expertIds.getD offset 0
  throwIf (expert ≥ config.expertCount.toNat)
    (.runtime_error "CUDA router selected an invalid expert")
  let score := selection.scores.getD offset 0
  return ({ s.1 with
      selectedExpertIds := s.1.selectedExpertIds ++ [expert]
      routingScores := s.1.routingScores ++ [score] },
    s.2.place groupOps expert (token, score))

def makeDecision (layerId : LayerId) (tokenCount : Nat) (config : RouterConfig)
    (selection : RoutingSelection K) : Except StdError (BatchRouterDecision K) := do
  throwIf (tokenCount > (2 ^ 64 - 1) / config.topK.toNat)
    (.overflow_error "CUDA router selection size overflows")
  let expected := tokenCount * config.topK.toNat
  throwIf (selection.expertIds.length ≠ expected ∨
      selection.scores.length ≠ selection.expertIds.length)
    (.runtime_error "CUDA router returned inconsistent selection data")
  let (tokens, groups) ← (List.range tokenCount).foldlM
    (fun (tokens, groups) token => do
      let (decision, groups) ← (List.range config.topK.toNat).foldlM
        (takeRank config selection token) (⟨layerId, [], []⟩, groups)
      return (tokens ++ [decision], groups)) ([], {})
  return {
    layerId := layerId
    tokens := tokens
    expertGroups := groups.groups.insertionSort fun left right => left.expertId ≤ right.expertId }

/-! ## the selection of the host -/

/-- `routeToken` after the logits -/
def selectToken (N : Numerics K) (layerId : LayerId) (logits : List K) (config : RouterConfig) :
    Except StdError (RouterDecision K) := do
  let scores ← normalize N config.normalization logits
  let indices := List.range config.expertCount.toNat
  let selectedExpertIds := partialSort scores config.topK.toNat indices
  let routingScores := selectedExpertIds.map fun expert => scores.getD expert 0
  let routingScores ← renormalizeIf config.renormalizeSelected routingScores
  return { layerId, selectedExpertIds, routingScores }

theorem routeToken_eq (N : Numerics K) (layerId : LayerId) (hidden : List K) (weights : Grid K)
    (hiddenSize : Nat) (config : RouterConfig) :
    routeToken N layerId hidden weights hiddenSize config =
      selectToken N layerId (expertScores hidden weights hiddenSize config.expertCount.toNat)
        config := rfl

/-- `routeBatch` after the logits -/
def routeLogits (N : Numerics K) (layerId : LayerId) (logits : Grid K) (config : RouterConfig) :
    Except StdError (BatchRouterDecision K) :=
  decideAll layerId logits.rows fun token => selectToken N layerId (logits.row token) config

/-- the logits of a batch -/
def batchLogits (hiddenStates routerWeights : Grid K) (config : RouterConfig) : Grid K :=
  Grid.generate hiddenStates.rows config.expertCount.toNat fun token expert =>
    (expertScores (hiddenStates.row token) routerWeights hiddenStates.columns
      config.expertCount.toNat).getD expert 0

omit [LinearOrder K] in
theorem row_batchLogits (hiddenStates routerWeights : Grid K) (config : RouterConfig) {token : Nat}
    (h : token < hiddenStates.rows) :
    (batchLogits hiddenStates routerWeights config).row token = expertScores
      (hiddenStates.row token) routerWeights hiddenStates.columns config.expertCount.toNat := by
  have hlength : (expertScores (hiddenStates.row token) routerWeights hiddenStates.columns
      config.expertCount.toNat).length = config.expertCount.toNat := by
    rw [expertScores, List.length_map, List.length_range]
  refine List.ext_getElem (Grid.length_row.trans hlength.symm) fun expert hexpert hexpert' => ?_
  have hlt : expert < config.expertCount.toNat := hlength ▸ hexpert'
  have hget : ((batchLogits hiddenStates routerWeights config).row token).getD expert 0 =
      (expertScores (hiddenStates.row token) routerWeights hiddenStates.columns
        config.expertCount.toNat).getD expert 0 :=
    (Grid.getD_row (g := batchLogits hiddenStates routerWeights config) hlt).trans
      (Grid.get_generate _ h hlt)
  rwa [List.getD_eq_getElem _ _ hexpert, List.getD_eq_getElem _ _ hexpert'] at hget

theorem routeBatch_iff_routeLogits (N : Numerics K) (layerId : LayerId)
    (hiddenStates routerWeights : Grid K) (config : RouterConfig) (b : BatchRouterDecision K) :
    routeBatch N layerId hiddenStates routerWeights config = .ok b ↔
      validateInputs hiddenStates routerWeights config = .ok () ∧
      routeLogits N layerId (batchLogits hiddenStates routerWeights config) config = .ok b := by
  have htoken : ∀ token < hiddenStates.rows,
      routeToken N layerId (hiddenStates.row token) routerWeights hiddenStates.columns config =
        selectToken N layerId ((batchLogits hiddenStates routerWeights config).row token) config :=
    fun token h => by rw [routeToken_eq, row_batchLogits hiddenStates routerWeights config h]
  rw [routeBatch_eq_ok, routeLogits, decideAll_eq_ok]
  refine and_congr_right fun _ => and_congr_left fun _ => ?_
  rw [collect_range_eq_ok, collect_range_eq_ok]
  refine and_congr_right fun hlength => forall_congr' fun i => forall_congr' fun hi => ?_
  rw [htoken i (hlength ▸ hi)]

end

/-! ## a search -/

section
variable {K : Type} [Field K] [LinearOrder K]

omit [LinearOrder K] in
theorem getD_map_finite (scores : List K) (expert : Nat) :
    (scores.map finite).getD expert 0 = finite (scores.getD expert 0) := by
  rw [List.getD_eq_getElem?_getD, List.getD_eq_getElem?_getD, List.getElem?_map]
  cases scores[expert]? with
  | none => rfl
  | some score => rfl

/-- `best` is the first of the experts below `n` that are not selected -/
structure First (scores : List K) (n : Nat) (alreadySelected : ExpertId → Bool) (best : ExpertId) :
    Prop where
  lt : best < n
  free : alreadySelected best = false
  before_others : ∀ other < n, alreadySelected other = false → other ≠ best →
    before scores best other

theorem before_of_less {scores : List K} {a b : ExpertId}
    (h : scores.getD b 0 < scores.getD a 0) : before scores a b := by
  rw [before, if_neg h.ne']
  exact h

theorem before_of_le {scores : List K} {a b : ExpertId} (hlt : a < b)
    (h : scores.getD b 0 ≤ scores.getD a 0) : before scores a b := by
  rcases h.eq_or_lt with he | hless
  · rw [before, if_pos he.symm]
    exact hlt
  · exact before_of_less hless

/-- induction on the experts that were looked at: there is none to take yet, or the best so far -/
theorem scan_cases (scores : List K) (alreadySelected : ExpertId → Bool) (experts n : Nat) :
    ((∀ expert < n, alreadySelected expert = true) ∧
      (List.range n).foldl (scanStep (scores.map finite) alreadySelected)
        (experts, infinite true) = (experts, infinite true)) ∨
    ∃ best, First scores n alreadySelected best ∧
      (List.range n).foldl (scanStep (scores.map finite) alreadySelected)
        (experts, infinite true) = (best, finite (scores.getD best 0)) := by
  induction n with
  | zero => exact .inl ⟨fun expert h => absurd h (Nat.not_lt_zero _), rfl⟩
  | succ n ih =>
    rw [List.range_succ, List.foldl_append, List.foldl_cons, List.foldl_nil]
    rcases ih with ⟨hall, hfold⟩ | ⟨best, hbest, hfold⟩
    · rw [hfold, scanStep, getD_map_finite]
      cases hn : alreadySelected n with
      | true =>
        refine .inl ⟨fun expert h => ?_, rfl⟩
        rcases Nat.lt_succ_iff_lt_or_eq.mp h with h | rfl
        · exact hall expert h
        · exact hn
      | false =>
        refine .inr ⟨n, ⟨Nat.lt_succ_self n, hn, fun other h hfree hne => ?_⟩, rfl⟩
        rw [hall other (Nat.lt_of_le_of_ne (Nat.le_of_lt_succ h) hne)] at hfree
        exact nomatch hfree
    · rw [hfold, scanStep, getD_map_finite]
      cases hn : alreadySelected n with
      | true =>
        refine .inr ⟨best, ⟨Nat.lt_succ_of_lt hbest.lt, hbest.free, fun other h hfree hne => ?_⟩, rfl⟩
        rcases Nat.lt_succ_iff_lt_or_eq.mp h with h | rfl
        · exact hbest.before_others other h hfree hne
        · rw [hn] at hfree
          exact nomatch hfree
      | false =>
        by_cases hless : scores.getD best 0 < scores.getD n 0
        · -- a strictly better one takes the place
          refine .inr ⟨n, ⟨Nat.lt_succ_self n, hn, fun other h hfree hne => ?_⟩, ?_⟩
          · have hlt := Nat.lt_of_le_of_ne (Nat.le_of_lt_succ h) hne
            by_cases he : other = best
            · rw [he]
              exact before_of_less hless
            · exact (ranks_before scores []).trans _ _ _ (before_of_less hless)
                (hbest.before_others other hlt hfree he)
          · have hl : less (finite (scores.getD best 0)) (finite (scores.getD n 0)) = true :=
              decide_eq_true hless
            simp only [hl, Bool.not_false, Bool.true_and, Bool.true_or, if_true]
        · refine .inr ⟨best, ⟨Nat.lt_succ_of_lt hbest.lt, hbest.free,
            fun other h hfree hne => ?_⟩, ?_⟩
          · rcases Nat.lt_succ_iff_lt_or_eq.mp h with h | rfl
            · exact hbest.before_others other h hfree hne
            · exact before_of_le hbest.lt (not_lt.mp hless)
          · have hl : less (finite (scores.getD best 0)) (finite (scores.getD n 0)) = false :=
              decide_eq_false hless
            have hi : decide (n < best) = false :=
              decide_eq_false (Nat.not_lt.mpr (Nat.le_of_lt hbest.lt))
            simp only [hl, hi, Bool.and_false, Bool.or_false, Bool.false_eq_true, if_false]

theorem scan_spec (scores : List K) {experts : Nat} {alreadySelected : ExpertId → Bool}
    (h : ∃ expert < experts, alreadySelected expert = false) :
    ∃ best, First scores experts alreadySelected best ∧
      scan (scores.map finite) experts alreadySelected = (best, finite (scores.getD best 0)) := by
  obtain ⟨expert, hlt, hfree⟩ := h
  refine (scan_cases scores alreadySelected experts experts).resolve_left fun hnone => ?_
  rw [hnone.1 expert hlt] at hfree
  exact nomatch hfree

end

/-! ## a token -/

section
variable {K : Type} [Field K] [LinearOrder K]

structure Shaped (tokens topK : Nat) (out : SelectionArrays K) : Prop where
  ids_rows : out.selectedIds.rows = tokens
  ids_columns : out.selectedIds.columns = topK
  scores_rows : out.selectedScores.rows = tokens
  scores_columns : out.selectedScores.columns = topK

/-- a thread keeps the shapes, and the rows of the other tokens -/
structure Keeps (tokens topK token : Nat) (out out' : SelectionArrays K) : Prop where
  shaped : Shaped tokens topK out'
  ids : ∀ other ≠ token, ∀ j < topK, out'.selectedIds.get other j = out.selectedIds.get other j
  scores : ∀ other ≠ token, ∀ j < topK,
    out'.selectedScores.get other j = out.selectedScores.get other j

variable {tokens topK token experts rank : Nat} {out out' out'' : SelectionArrays K}
  {scores : List K} {chosen : List ExpertId} {selectedSum : Extended K}

omit [LinearOrder K] in
theorem Keeps.rfl (h : Shaped tokens topK out) : Keeps tokens topK token out out :=
  ⟨h, fun _ _ _ _ => Eq.refl _, fun _ _ _ _ => Eq.refl _⟩

omit [LinearOrder K] in
theorem Keeps.trans (h : Keeps tokens topK token out out') (h' : Keeps tokens topK token out' out'') :
    Keeps tokens topK token out out'' where
  shaped := h'.shaped
  ids other hne j hj := (h'.ids other hne j hj).trans (h.ids other hne j hj)
  scores other hne j hj := (h'.scores other hne j hj).trans (h.scores other hne j hj)

theorem keeps_selectRank {row : List (Extended K)} (h : Shaped tokens topK out)
    (htoken : token < tokens) (hrank : rank < topK) :
    Keeps tokens topK token out (selectRank row experts token (out, selectedSum) rank).1 where
  shaped := ⟨h.ids_rows, h.ids_columns, h.scores_rows, h.scores_columns⟩
  ids other hne j hj := by
    refine (Grid.get_modify _ (h.ids_rows.symm ▸ htoken) (h.ids_columns.symm ▸ hrank)
      (h.ids_columns.symm ▸ hj)).trans ?_
    rw [if_neg fun he => hne he.1]
  scores other hne j hj := by
    refine (Grid.get_modify _ (h.scores_rows.symm ▸ htoken) (h.scores_columns.symm ▸ hrank)
      (h.scores_columns.symm ▸ hj)).trans ?_
    rw [if_neg fun he => hne he.1]

/-- after some ranks: the first experts, in the row of the token -/
structure Searched (scores : List K) (experts token : Nat) (out : SelectionArrays K)
    (selectedSum : Extended K) (chosen : List ExpertId) : Prop where
  leading : Leading (before scores) (List.range experts) chosen
  ids : ∀ j (h : j < chosen.length), out.selectedIds.get token j = chosen[j]
  values : ∀ j (h : j < chosen.length),
    out.selectedScores.get token j = finite (scores.getD chosen[j] 0)
  sum : selectedSum = finite (chosen.map fun expert => scores.getD expert 0).sum

theorem Searched.alreadySelected (h : Searched scores experts token out selectedSum chosen)
    (expert : ExpertId) :
    ((List.range chosen.length).any fun prior => out.selectedIds.get token prior == expert) =
      true ↔ expert ∈ chosen := by
  rw [List.any_eq_true]
  constructor
  · rintro ⟨prior, hprior, he⟩
    have hlt := List.mem_range.mp hprior
    rw [h.ids prior hlt, beq_iff_eq] at he
    exact he ▸ List.getElem_mem hlt
  · intro hmem
    obtain ⟨prior, hlt, rfl⟩ := List.getElem_of_mem hmem
    exact ⟨prior, List.mem_range.mpr hlt, by rw [h.ids prior hlt]; exact beq_self_eq_true _⟩

theorem searched_selectRank (h : Searched scores experts token out selectedSum chosen)
    (hshaped : Shaped tokens topK out) (htoken : token < tokens) (hrank : chosen.length < topK)
    (hle : topK ≤ experts) (hexperts : experts < 2 ^ 32) :
    ∃ best, Searched scores experts token
      (selectRank (scores.map finite) experts token (out, selectedSum) chosen.length).1
      (selectRank (scores.map finite) experts token (out, selectedSum) chosen.length).2
      (chosen ++ [best]) := by
  -- there are more experts than ranks
  have hfree : ∃ expert < experts, ((List.range chosen.length).any fun prior =>
      out.selectedIds.get token prior == expert) = false := by
    by_contra hnone
    have hsub : List.range experts ⊆ chosen := by
      intro expert hexpert
      refine (h.alreadySelected expert).mp ?_
      rw [← Bool.not_eq_false]
      exact fun hfalse => hnone ⟨expert, List.mem_range.mp hexpert, hfalse⟩
    have hcount := (List.subperm_of_subset List.nodup_range hsub).length_le
    rw [List.length_range] at hcount
    exact absurd (hrank.trans_le hle) (Nat.not_lt.mpr hcount)
  obtain ⟨best, hbest, hscan⟩ := scan_spec scores hfree
  have hnot : ∀ {expert}, ((List.range chosen.length).any fun prior =>
      out.selectedIds.get token prior == expert) = false ↔ expert ∉ chosen := fun {expert} => by
    rw [← h.alreadySelected expert, Bool.not_eq_true]
  have hid : best % 2 ^ 32 = best := Nat.mod_eq_of_lt (hbest.lt.trans hexperts)
  have hresult : selectRank (scores.map finite) experts token (out, selectedSum) chosen.length =
      ({ selectedIds := out.selectedIds.modify token chosen.length fun _ => best
         selectedScores := out.selectedScores.modify token chosen.length fun _ =>
           finite (scores.getD best 0) }, add selectedSum (finite (scores.getD best 0))) := by
    unfold selectRank
    dsimp only
    rw [hscan]
    dsimp only
    rw [hid]
  rw [hresult]
  refine ⟨best, h.leading.snoc (List.mem_range.mpr hbest.lt) (hnot.mp hbest.free) ?_, ?_, ?_, ?_⟩
  · intro other hother hout hne
    exact hbest.before_others other (List.mem_range.mp hother) (hnot.mpr hout) hne
  · intro j hj
    rw [List.length_append, List.length_singleton] at hj
    have hjk : j < topK := (Nat.lt_succ_iff.mp hj).trans_lt hrank
    rw [Grid.get_modify _ (hshaped.ids_rows.symm ▸ htoken) (hshaped.ids_columns.symm ▸ hrank)
      (hshaped.ids_columns.symm ▸ hjk)]
    rcases Nat.lt_succ_iff_lt_or_eq.mp hj with hlt | rfl
    · rw [if_neg fun he => absurd he.2 (Nat.ne_of_lt hlt), h.ids j hlt, List.getElem_append_left]
    · rw [if_pos ⟨rfl, rfl⟩, List.getElem_concat_length rfl]
  · intro j hj
    rw [List.length_append, List.length_singleton] at hj
    have hjk : j < topK := (Nat.lt_succ_iff.mp hj).trans_lt hrank
    rw [Grid.get_modify _ (hshaped.scores_rows.symm ▸ htoken)
      (hshaped.scores_columns.symm ▸ hrank) (hshaped.scores_columns.symm ▸ hjk)]
    rcases Nat.lt_succ_iff_lt_or_eq.mp hj with hlt | rfl
    · rw [if_neg fun he => absurd he.2 (Nat.ne_of_lt hlt), h.values j hlt,
        List.getElem_append_left]
    · rw [if_pos ⟨rfl, rfl⟩, List.getElem_concat_length rfl]
  · rw [h.sum, List.map_append, List.sum_append, List.map_singleton, List.sum_singleton]
    exact Eq.refl _

theorem keeps_ranks {row : List (Extended K)} (hshaped : Shaped tokens topK out)
    (htoken : token < tokens) : ∀ n ≤ topK, Keeps tokens topK token out
      ((List.range n).foldl (selectRank row experts token) (out, finite 0)).1 := by
  intro n
  induction n with
  | zero => exact fun _ => .rfl hshaped
  | succ n ih =>
    intro hn
    have hkeeps := ih (Nat.le_of_succ_le hn)
    rw [List.range_succ, List.foldl_append, List.foldl_cons, List.foldl_nil]
    exact hkeeps.trans (keeps_selectRank hkeeps.shaped htoken hn)

variable (scores) in
theorem searched_ranks (hshaped : Shaped tokens topK out) (htoken : token < tokens)
    (hle : topK ≤ experts) (hexperts : experts < 2 ^ 32) :
    ∀ n ≤ topK, ∃ chosen, chosen.length = n ∧ Searched scores experts token
      ((List.range n).foldl (selectRank (scores.map finite) experts token) (out, finite 0)).1
      ((List.range n).foldl (selectRank (scores.map finite) experts token) (out, finite 0)).2
      chosen := by
  intro n
  induction n with
  | zero =>
    exact fun _ => ⟨[], rfl, .nil, fun j h => absurd h (Nat.not_lt_zero _),
      fun j h => absurd h (Nat.not_lt_zero _), rfl⟩
  | succ n ih =>
    intro hn
    have hkeeps : Keeps tokens topK token out ((List.range n).foldl
        (selectRank (scores.map finite) experts token) (out, finite 0)).1 :=
      keeps_ranks hshaped htoken n (Nat.le_of_succ_le hn)
    obtain ⟨chosen, rfl, hsearched⟩ := ih (Nat.le_of_succ_le hn)
    obtain ⟨best, hnext⟩ := searched_selectRank hsearched hkeeps.shaped htoken hn hle hexperts
    rw [List.range_succ, List.foldl_append, List.foldl_cons, List.foldl_nil]
    exact ⟨chosen ++ [best], by rw [List.length_append, List.length_singleton], hnext⟩

omit [LinearOrder K] in
theorem keeps_modifyRow (h : Shaped tokens topK out) (htoken : token < tokens)
    (f : Nat → Extended K → Extended K) :
    Keeps tokens topK token out
      { out with selectedScores := out.selectedScores.modifyRow token f } where
  shaped := ⟨h.ids_rows, h.ids_columns, Grid.rows_modifyRow.trans h.scores_rows,
    Grid.columns_modifyRow.trans h.scores_columns⟩
  ids _ _ _ _ := rfl
  scores other hne j hj := by
    refine (Grid.get_modifyRow (h.scores_rows.symm ▸ htoken) (h.scores_columns.symm ▸ hj)).trans ?_
    rw [if_neg hne]

omit [LinearOrder K] in
theorem keeps_modify (h : Shaped tokens topK out) (htoken : token < tokens) (hrank : rank < topK)
    (f : Extended K → Extended K) :
    Keeps tokens topK token out
      { out with selectedScores := out.selectedScores.modify token rank f } where
  shaped := ⟨h.ids_rows, h.ids_columns, h.scores_rows, h.scores_columns⟩
  ids _ _ _ _ := rfl
  scores other hne j hj := by
    refine (Grid.get_modify _ (h.scores_rows.symm ▸ htoken) (h.scores_columns.symm ▸ hrank)
      (h.scores_columns.symm ▸ hj)).trans ?_
    rw [if_neg fun he => hne he.1]

/-- the row of the token, when its thread is done -/
structure TokenResult (scores : List K) (experts topK token : Nat) (renormalize : Bool)
    (out : SelectionArrays K) : Prop where
  ids : ∀ j (h : j < (partialSort scores topK (List.range experts)).length),
    out.selectedIds.get token j = (partialSort scores topK (List.range experts))[j]
  accepted : ∀ routingScores, renormalizeIf renormalize
      ((partialSort scores topK (List.range experts)).map fun expert => scores.getD expert 0) =
        .ok routingScores →
    ∀ j < topK, out.selectedScores.get token j = finite (routingScores.getD j 0)
  rejected : ∀ e, renormalizeIf renormalize
      ((partialSort scores topK (List.range experts)).map fun expert => scores.getD expert 0) =
        .error e →
    out.selectedScores.get token 0 = nan

theorem TokenResult.keeps {other : Nat} {renormalize : Bool}
    (h : TokenResult scores experts topK token renormalize out) (hzero : 0 < topK)
    (hkeeps : Keeps tokens topK other out out') (hne : token ≠ other) :
    TokenResult scores experts topK token renormalize out' where
  ids j hj := by
    have hjk : j < topK := by
      rw [partialSort, List.length_take] at hj
      exact (Nat.lt_min.mp hj).1
    rw [hkeeps.ids token hne j hjk, h.ids j hj]
  accepted routingScores hscores j hj := by
    rw [hkeeps.scores token hne j hj, h.accepted routingScores hscores j hj]
  rejected e he := by rw [hkeeps.scores token hne 0 hzero, h.rejected e he]

/-! ## the launch -/

variable {exp : K → K} {logits : Grid K} {softmax renormalize : Bool}

variable (exp logits softmax renormalize) in
theorem keeps_routerTopKKernel (hshaped : Shaped logits.rows topK out) (hzero : 0 < topK)
    (token : Nat) : Keeps logits.rows topK token out
      (routerTopKKernel exp logits topK softmax renormalize token out) := by
  unfold routerTopKKernel
  split
  · exact .rfl hshaped
  · next htoken =>
    have hlt : token < logits.rows := Nat.lt_of_not_ge htoken
    have hkeeps : Keeps logits.rows topK token out ((List.range topK).foldl
        (selectRank (normalizeRow exp softmax (logits.row token)) logits.columns token)
        (out, finite 0)).1 := keeps_ranks hshaped hlt topK (Nat.le_refl _)
    dsimp only
    split
    · exact hkeeps.trans (keeps_modifyRow hkeeps.shaped hlt _)
    · split
      · exact hkeeps.trans (keeps_modify hkeeps.shaped hlt hzero _)
      · exact hkeeps

theorem tokenResult_kernel (hshaped : Shaped logits.rows topK out) (hzero : 0 < topK)
    (hle : topK ≤ logits.columns) (hexperts : logits.columns < 2 ^ 32) (htoken : token < logits.rows)
    (hrow : normalizeRow exp softmax (logits.row token) = scores.map finite) :
    TokenResult scores logits.columns topK token renormalize
      (routerTopKKernel exp logits topK softmax renormalize token out) := by
  obtain ⟨chosen, hlength, hsearched⟩ := searched_ranks scores hshaped htoken hle
    hexperts topK (Nat.le_refl _)
  have hkeeps : Keeps logits.rows topK token out ((List.range topK).foldl
      (selectRank (scores.map finite) logits.columns token) (out, finite 0)).1 :=
    keeps_ranks hshaped htoken topK (Nat.le_refl _)
  have hchosen : chosen = partialSort scores topK (List.range logits.columns) := by
    refine hsearched.leading.unique (ranks_before scores _)
      (leading_partialSort scores List.nodup_range topK) ?_
    rw [hlength, length_partialSort (by rwa [List.length_range])]
  unfold routerTopKKernel
  rw [if_neg (Nat.not_le.mpr htoken)]
  dsimp only
  rw [hrow]
  generalize (List.range topK).foldl (selectRank (scores.map finite) logits.columns token)
    (out, finite 0) = searched at hsearched hkeeps
  obtain ⟨out', selectedSum⟩ := searched
  subst hchosen
  obtain ⟨-, hids, hvalues, hsum⟩ := hsearched
  obtain rfl : selectedSum = _ := hsum
  have hshaped' := hkeeps.shaped
  -- an element of the row before the renormalization
  have hraw : ∀ j < topK, ∃ score, out'.selectedScores.get token j = finite score ∧
      ((partialSort scores topK (List.range logits.columns)).map fun expert =>
        scores.getD expert 0)[j]? = some score := by
    intro j hj
    have hlt : j < (partialSort scores topK (List.range logits.columns)).length := by rwa [hlength]
    exact ⟨_, hvalues j hlt, by rw [List.getElem?_map, List.getElem?_eq_getElem hlt]; rfl⟩
  generalize hmapped : (partialSort scores topK (List.range logits.columns)).map
    (fun expert => scores.getD expert 0) = raw at hraw
  cases renormalize with
  | false =>
    simp only [Bool.false_and, Bool.false_eq_true, if_false]
    refine ⟨hids, fun routingScores h j hj => ?_, fun e h => ?_⟩
    · rw [hmapped] at h
      obtain rfl := pure_eq_ok.mp h
      obtain ⟨score, hget, helem⟩ := hraw j hj
      rw [hget, List.getD_eq_getElem?_getD, helem]
      rfl
    · exact nomatch h
  | true =>
    by_cases hzero' : raw.sum = 0
    · have hsame : same (finite raw.sum) 0 = true := decide_eq_true hzero'
      simp only [hsame, Bool.not_true, Bool.and_false, Bool.false_eq_true, if_false, if_true]
      refine ⟨hids, fun routingScores h j hj => ?_, fun e h => ?_⟩
      · rw [hmapped] at h
        exact absurd hzero' (throwIf_bind_eq_ok.mp h).1
      · refine (Grid.get_modify _ (hshaped'.scores_rows.symm ▸ htoken)
          (hshaped'.scores_columns.symm ▸ hzero) (hshaped'.scores_columns.symm ▸ hzero)).trans ?_
        rw [if_pos ⟨rfl, rfl⟩]
    · have hsame : same (finite raw.sum) 0 = false := decide_eq_false hzero'
      simp only [hsame, isFinite, Bool.not_false, Bool.and_true, if_true]
      refine ⟨hids, fun routingScores h j hj => ?_, fun e h => ?_⟩
      · rw [hmapped] at h
        obtain rfl := pure_eq_ok.mp (throwIf_bind_eq_ok.mp h).2
        obtain ⟨score, hget, helem⟩ := hraw j hj
        rw [Grid.get_modifyRow (hshaped'.scores_rows.symm ▸ htoken)
          (hshaped'.scores_columns.symm ▸ hj), if_pos rfl, hget, div_finite _ hzero',
          List.getD_eq_getElem?_getD, List.getElem?_map, helem]
        rfl
      · rw [hmapped] at h
        have haccepted : renormalizeIf true raw = .ok (raw.map fun score => score / raw.sum) :=
          throwIf_bind_eq_ok.mpr ⟨hzero', rfl⟩
        rw [haccepted] at h
        exact nomatch h

variable (exp softmax renormalize) in
theorem launch_routed {schedule : List Nat} {arrays : SelectionArrays K}
    (hshaped : Shaped logits.rows topK arrays) (hzero : 0 < topK) (hle : topK ≤ logits.columns)
    (hexperts : logits.columns < 2 ^ 32) (hnodup : schedule.Nodup) :
    ∃ out, launch (fun token out =>
        some (routerTopKKernel exp logits topK softmax renormalize token out)) schedule arrays =
          some out ∧
      Shaped logits.rows topK out ∧
      ∀ token ∈ schedule, token < logits.rows → ∀ scores : List K,
        normalizeRow exp softmax (logits.row token) = scores.map finite →
        TokenResult scores logits.columns topK token renormalize out := by
  refine launch_induct (fun (done : List Nat) out => Shaped logits.rows topK out ∧
    ∀ token ∈ done, token < logits.rows → ∀ scores : List K,
      normalizeRow exp softmax (logits.row token) = scores.map finite →
      TokenResult scores logits.columns topK token renormalize out) ?_ hnodup
    ⟨hshaped, fun token h => absurd h List.not_mem_nil⟩
  rintro done token out _ hnot ⟨hout, hdone⟩
  have hkeeps := keeps_routerTopKKernel exp logits softmax renormalize hout hzero token
  refine ⟨_, rfl, hkeeps.shaped, fun other hother hlt scores hrow => ?_⟩
  by_cases he : other = token
  · subst he
    exact tokenResult_kernel hout hzero hle hexperts hlt hrow
  · have hmem := (List.mem_append.mp hother).resolve_right fun h => he (List.mem_singleton.mp h)
    exact (hdone other hmem hlt scores hrow).keeps hzero hkeeps he

end

/-! ## the decisions -/

section
variable {K : Type} [Field K] [LinearOrder K]

omit [Field K] [LinearOrder K] in
theorem finiteScore_eq_ok {value : Extended K} {score : K} :
    finiteScore value = .ok score ↔ value = finite score := by
  cases value with
  | finite x =>
    constructor
    · intro h
      rw [pure_eq_ok.mp h]
    · intro h
      rw [Extended.finite.inj h]
      rfl
  | infinite negative => exact ⟨fun h => (nomatch h), fun h => (nomatch h)⟩
  | nan => exact ⟨fun h => (nomatch h), fun h => (nomatch h)⟩

omit [Field K] [LinearOrder K] in
theorem collect_finiteScore {values : List (Extended K)} {scores : List K} :
    collect finiteScore values = .ok scores ↔ values = scores.map finite := by
  rw [collect_eq_ok]
  simp only [finiteScore_eq_ok]
  rw [← List.forall₂_map_right_iff (f := finite), List.forall₂_eq_eq_eq]

/-- the decision that the arrays hold for a token -/
def RoutingSelection.decision (layerId : LayerId) (config : RouterConfig)
    (selection : RoutingSelection K) (token ranks : Nat) : RouterDecision K where
  layerId := layerId
  selectedExpertIds := (List.range ranks).map fun rank =>
    selection.expertIds.getD (token * config.topK.toNat + rank) 0
  routingScores := (List.range ranks).map fun rank =>
    selection.scores.getD (token * config.topK.toNat + rank) 0

variable {layerId : LayerId} {config : RouterConfig} {selection : RoutingSelection K} {token : Nat}

omit [Field K] [LinearOrder K] in
/-- one more rank -/
theorem addDecision_concat (groups : Grouped ExpertId (ExpertTokenGroup K)) (token : Nat)
    {d : RouterDecision K} (h : d.selectedExpertIds.length = d.routingScores.length)
    (expert : ExpertId) (score : K) :
    addDecision groups token { d with
        selectedExpertIds := d.selectedExpertIds ++ [expert]
        routingScores := d.routingScores ++ [score] } =
      (addDecision groups token d).place groupOps expert (token, score) := by
  unfold addDecision tokenAssignments
  rw [List.zip_append h, List.map_append, List.foldl_append]
  rfl

omit [LinearOrder K] in
theorem takeRanks (groups : Grouped ExpertId (ExpertTokenGroup K)) (n : Nat)
    (hvalid : ∀ rank < n, selection.expertIds.getD (token * config.topK.toNat + rank) 0 <
      config.expertCount.toNat) :
    (List.range n).foldlM (takeRank config selection token) (⟨layerId, [], []⟩, groups) =
      .ok (selection.decision layerId config token n,
        addDecision groups token (selection.decision layerId config token n)) := by
  induction n with
  | zero => rfl
  | succ n ih =>
    have hexpert := Nat.not_le.mpr (hvalid n (Nat.lt_succ_self n))
    rw [List.range_succ, List.foldlM_append, ih fun rank h => hvalid rank (Nat.lt_succ_of_lt h)]
    refine bind_eq_ok.mpr ⟨_, rfl, bind_eq_ok.mpr ⟨_,
      throwIf_bind_eq_ok.mpr ⟨hexpert, rfl⟩, ?_⟩⟩
    have hdecision : selection.decision layerId config token (n + 1) =
        { selection.decision layerId config token n with
          selectedExpertIds := (selection.decision layerId config token n).selectedExpertIds ++
            [selection.expertIds.getD (token * config.topK.toNat + n) 0]
          routingScores := (selection.decision layerId config token n).routingScores ++
            [selection.scores.getD (token * config.topK.toNat + n) 0] } := by
      unfold RoutingSelection.decision
      rw [List.range_succ, List.map_append, List.map_append]
      rfl
    rw [hdecision, addDecision_concat]
    · rfl
    · unfold RoutingSelection.decision
      rw [List.length_map, List.length_map]

omit [LinearOrder K] in
theorem makeDecision_eq {tokenCount : Nat} (hzero : 0 < config.topK.toNat)
    (hsize : tokenCount * config.topK.toNat < 2 ^ 64)
    (hids : selection.expertIds.length = tokenCount * config.topK.toNat)
    (hscores : selection.scores.length = selection.expertIds.length)
    (hvalid : ∀ token < tokenCount, ∀ rank < config.topK.toNat,
      selection.expertIds.getD (token * config.topK.toNat + rank) 0 < config.expertCount.toNat) :
    makeDecision layerId tokenCount config selection = decideAll layerId tokenCount fun token =>
      pure (selection.decision layerId config token config.topK.toNat) := by
  have hoverflow : ¬ tokenCount > (2 ^ 64 - 1) / config.topK.toNat :=
    Nat.not_lt.mpr ((Nat.le_div_iff_mul_le hzero).mpr (Nat.le_sub_one_of_lt hsize))
  have hconsistent : ¬ (selection.expertIds.length ≠ tokenCount * config.topK.toNat ∨
      selection.scores.length ≠ selection.expertIds.length) := by
    rw [not_or, not_not, not_not]
    exact ⟨hids, hscores⟩
  have hloop : ∀ token ∈ List.range tokenCount,
      ∀ s : List (RouterDecision K) × Grouped ExpertId (ExpertTokenGroup K),
      (do
        let (decision, groups) ← (List.range config.topK.toNat).foldlM
          (takeRank config selection token) (⟨layerId, [], []⟩, s.2)
        return (s.1 ++ [decision], groups)) = (do
        let decision ← pure (selection.decision layerId config token config.topK.toNat)
        return (s.1 ++ [decision], addDecision s.2 token decision) : Except StdError _) := by
    intro token htoken s
    rw [takeRanks s.2 _ (hvalid token (List.mem_range.mp htoken))]
    rfl
  refine (throwIf_bind_of_not hoverflow).trans ((throwIf_bind_of_not hconsistent).trans ?_)
  exact congrArg (· >>= fun s => pure (BatchRouterDecision.mk layerId s.1
    (s.2.groups.insertionSort fun left right => left.expertId ≤ right.expertId)))
    (foldlM_congr hloop ([], {}))

/-! ## device and host -/

/-- the device, from the logits to the decisions -/
def deviceRoute (N : Numerics K) (layerId : LayerId) (logits : Grid K) (config : RouterConfig)
    (schedule : List Nat) (arrays : SelectionArrays K) :
    Except StdError (BatchRouterDecision K) := do
  let selection ← routeTopK N logits config.topK.toNat
    (decide (config.normalization = .Softmax)) config.renormalizeSelected schedule arrays
  makeDecision layerId logits.rows config selection

omit [Field K] [LinearOrder K] in
theorem returns_validate_ids (config : RouterConfig) :
    Fallible.Returns config.validate fun _ => config.expertCount ≤ 0xffffffff := by
  refine Fallible.Returns.then fun _ => Fallible.Returns.guard fun hcount => ?_
  exact (Fallible.returns_throwIf _ _).mono fun _ _ => UInt64.not_lt.mp hcount

structure Configured (config : RouterConfig) : Prop where
  topK_pos : 0 < config.topK.toNat
  topK_le : config.topK.toNat ≤ config.expertCount.toNat
  experts_lt : config.expertCount.toNat < 2 ^ 32

theorem configured_of_validate {u : Unit} (h : (config.validate.exec true).1 = .ok u) :
    Configured config := by
  obtain ⟨hzero, hle⟩ := returns_validate config true u h
  have hids := returns_validate_ids config true u h
  refine ⟨Nat.pos_of_ne_zero fun h0 => hzero (UInt64.toNat_inj.mp h0), hle, ?_⟩
  exact Nat.lt_of_le_of_lt (UInt64.le_iff_toNat_le.mp hids) (by decide)

variable {N : Numerics K} {logits : Grid K} {b : BatchRouterDecision K}

theorem selectToken_eq_ok {row : List K} {d : RouterDecision K} :
    selectToken N layerId row config = .ok d ↔
      ∃ scores, normalize N config.normalization row = .ok scores ∧
      ∃ routingScores, renormalizeIf config.renormalizeSelected
        ((partialSort scores config.topK.toNat (List.range config.expertCount.toNat)).map
          fun expert => scores.getD expert 0) = .ok routingScores ∧
      d = ⟨layerId, partialSort scores config.topK.toNat (List.range config.expertCount.toNat),
        routingScores⟩ := by
  unfold selectToken
  rw [bind_eq_ok]
  refine exists_congr fun scores => and_congr_right fun _ => ?_
  rw [bind_eq_ok]
  refine exists_congr fun routingScores => and_congr_right fun _ => ?_
  rw [pure_eq_ok, eq_comm]

/-- where the softmax of the host succeeds, the row of the device is its scores -/
theorem normalizeRow_eq {row scores : List K}
    (h : normalize N config.normalization row = .ok scores) :
    normalizeRow N.exp (decide (config.normalization = .Softmax)) row = scores.map finite := by
  cases hkind : config.normalization with
  | None =>
    rw [hkind] at h
    obtain rfl := pure_eq_ok.mp h
    rfl
  | Softmax =>
    rw [hkind] at h
    obtain ⟨hpos, h⟩ := throwIf_bind_eq_ok.mp h
    obtain rfl := pure_eq_ok.mp h
    show softmaxRow N.exp row = _
    unfold softmaxRow
    dsimp only
    generalize (row.map fun logit => N.exp (logit - maxElement row)) = exps at hpos ⊢
    rw [List.map_map]
    exact List.map_congr_left fun score _ => div_finite score (not_le.mp hpos).ne'

omit [LinearOrder K] in
theorem exists_finite {g : Grid (Extended K)}
    (h : ∀ r < g.rows, ∀ c < g.columns, (g.get r c).isFinite = true) :
    ∃ values : List K, g.values = values.map finite := by
  have hall : ∀ v ∈ g.values, ∃ x, v = finite x := by
    intro v hv
    obtain ⟨k, hk, rfl⟩ := List.getElem_of_mem hv
    have hsize := hk
    rw [g.sized] at hsize
    have hcolumns : 0 < g.columns := Nat.pos_of_mul_pos_left (Nat.zero_lt_of_lt hsize)
    have hget := h (k / g.columns) ((Nat.div_lt_iff_lt_mul hcolumns).mpr hsize) (k % g.columns)
      (Nat.mod_lt k hcolumns)
    rw [Grid.get, Nat.div_add_mod', List.getD_eq_getElem _ _ hk] at hget
    cases hv : g.values[k] with
    | finite x => exact ⟨x, rfl⟩
    | infinite negative =>
      rw [hv] at hget
      cases hget
    | nan =>
      rw [hv] at hget
      cases hget
  generalize g.values = vs at hall
  induction vs with
  | nil => exact ⟨[], rfl⟩
  | cons v vs ih =>
    obtain ⟨x, rfl⟩ := hall v List.mem_cons_self
    obtain ⟨xs, rfl⟩ := ih fun v hv => hall v (List.mem_cons_of_mem _ hv)
    exact ⟨x :: xs, rfl⟩

section
variable {schedule : List Nat} {arrays out : SelectionArrays K}

/-- what the two sides share: the shapes, the limits and the schedule -/
structure Launchable (logits : Grid K) (config : RouterConfig) (schedule : List Nat)
    (arrays : SelectionArrays K) : Prop where
  configured : Configured config
  columns : logits.columns = config.expertCount.toNat
  shaped : Shaped logits.rows config.topK.toNat arrays
  nodup : schedule.Nodup
  scheduled : ∀ token < logits.rows, token ∈ schedule

/-- the arrays after the launch hold the result of each token whose row is finite -/
def Routed (N : Numerics K) (logits : Grid K) (config : RouterConfig) (out : SelectionArrays K) :
    Prop :=
  ∀ token < logits.rows, ∀ scores, normalize N config.normalization (logits.row token) = .ok scores →
    TokenResult scores config.expertCount.toNat config.topK.toNat token config.renormalizeSelected out

theorem routed_of_launch (N : Numerics K) (h : Launchable logits config schedule arrays) :
    ∃ out, launch (fun token out => some (routerTopKKernel N.exp logits config.topK.toNat
        (decide (config.normalization = .Softmax)) config.renormalizeSelected token out))
        schedule arrays = some out ∧
      Shaped logits.rows config.topK.toNat out ∧ Routed N logits config out := by
  have hcolumns := h.columns
  obtain ⟨out, hlaunch, hshaped, hdone⟩ := launch_routed N.exp
    (decide (config.normalization = .Softmax)) config.renormalizeSelected h.shaped h.configured.topK_pos
    (hcolumns ▸ h.configured.topK_le) (hcolumns ▸ h.configured.experts_lt) h.nodup
  refine ⟨out, hlaunch, hshaped, fun token htoken scores hscores => ?_⟩
  rw [← hcolumns]
  exact hdone token (h.scheduled token htoken) htoken scores (normalizeRow_eq hscores)

/-- a decision of the host, in the arrays -/
structure Stored (config : RouterConfig) (out : SelectionArrays K) (token : Nat)
    (d : RouterDecision K) : Prop where
  ids_length : d.selectedExpertIds.length = config.topK.toNat
  scores_length : d.routingScores.length = config.topK.toNat
  ids : ∀ j (h : j < d.selectedExpertIds.length),
    out.selectedIds.get token j = d.selectedExpertIds[j]
  scores : ∀ j < config.topK.toNat, out.selectedScores.get token j = finite (d.routingScores.getD j 0)
  valid : ∀ expert ∈ d.selectedExpertIds, expert < config.expertCount.toNat

theorem Routed.stored (h : Routed N logits config out) (hconfig : Configured config)
    (htoken : token < logits.rows) {d : RouterDecision K}
    (hd : selectToken N layerId (logits.row token) config = .ok d) : Stored config out token d := by
  obtain ⟨scores, hscores, routingScores, hrouting, rfl⟩ := selectToken_eq_ok.mp hd
  have hresult := h token htoken scores hscores
  have hlength : (partialSort scores config.topK.toNat
      (List.range config.expertCount.toNat)).length = config.topK.toNat := by
    apply length_partialSort
    rw [List.length_range]
    exact hconfig.topK_le
  refine ⟨hlength, ?_, hresult.ids, hresult.accepted routingScores hrouting, fun expert hmem => ?_⟩
  · show routingScores.length = _
    rw [length_renormalizeIf hrouting, List.length_map, hlength]
  · exact List.mem_range.mp (mem_of_mem_partialSort hmem)

omit [LinearOrder K] in
theorem Stored.decision {scores : List K} (h : Stored config out token d)
    (hcolumns : Shaped logits.rows config.topK.toNat out) (hlayer : d.layerId = layerId)
    (hscores : out.selectedScores.values = scores.map finite) :
    RoutingSelection.decision layerId config ⟨out.selectedIds.values, scores⟩ token
      config.topK.toNat = d := by
  obtain ⟨layerId', selectedExpertIds, routingScores⟩ := d
  obtain rfl : layerId' = layerId := hlayer
  have hids : (List.range config.topK.toNat).map (fun rank =>
      out.selectedIds.values.getD (token * config.topK.toNat + rank) 0) = selectedExpertIds := by
    refine List.ext_getElem ?_ fun j hj hj' => ?_
    · rw [List.length_map, List.length_range]
      exact h.ids_length.symm
    · rw [List.getElem_map, List.getElem_range, ← h.ids j hj', Grid.get, hcolumns.ids_columns]
  have hrouting : (List.range config.topK.toNat).map (fun rank =>
      scores.getD (token * config.topK.toNat + rank) 0) = routingScores := by
    refine List.ext_getElem ?_ fun j hj hj' => ?_
    · rw [List.length_map, List.length_range]
      exact h.scores_length.symm
    · have hjk : j < config.topK.toNat := by rwa [List.length_map, List.length_range] at hj
      have hget := h.scores j hjk
      rw [Grid.get, hcolumns.scores_columns, hscores, getD_map_finite,
        List.getD_eq_getElem _ _ hj'] at hget
      rw [List.getElem_map, List.getElem_range]
      exact Extended.finite.inj hget
  show RouterDecision.mk layerId' _ _ = _
  rw [hids, hrouting]

theorem deviceRoute_of_launch
    (hlaunch : launch (fun token out => some (routerTopKKernel N.exp logits config.topK.toNat
      (decide (config.normalization = .Softmax)) config.renormalizeSelected token out))
      schedule arrays = some out) :
    deviceRoute N layerId logits config schedule arrays = (do
      let scores ← collect finiteScore out.selectedScores.values
      makeDecision layerId logits.rows config ⟨out.selectedIds.values, scores⟩) := by
  unfold deviceRoute routeTopK
  rw [hlaunch]
  dsimp only
  rw [bind_assoc]
  rfl

theorem deviceRoute_accepted (hconfig : Configured config)
    (hsize : logits.rows * config.topK.toNat < 2 ^ 64)
    (hshaped : Shaped logits.rows config.topK.toNat out) (hrouted : Routed N logits config out)
    (hlaunch : launch (fun token out => some (routerTopKKernel N.exp logits config.topK.toNat
      (decide (config.normalization = .Softmax)) config.renormalizeSelected token out))
      schedule arrays = some out)
    (h : routeLogits N layerId logits config = .ok b) :
    deviceRoute N layerId logits config schedule arrays = .ok b := by
  obtain ⟨htokens, hlayer, hgroups⟩ := decideAll_eq_ok.mp h
  obtain ⟨hlength, hget⟩ := collect_range_eq_ok.mp htokens
  have hstored : ∀ i (hi : i < b.tokens.length), Stored config out i b.tokens[i] :=
    fun i hi => hrouted.stored hconfig (hlength ▸ hi) (hget i hi)
  obtain ⟨scores, hscores⟩ := exists_finite (g := out.selectedScores) (by
    rw [hshaped.scores_rows, hshaped.scores_columns]
    intro r hr c hc
    rw [(hstored r (hlength.symm ▸ hr)).scores c hc]
    rfl)
  have hdecision : ∀ i (hi : i < b.tokens.length), RoutingSelection.decision layerId config
      ⟨out.selectedIds.values, scores⟩ i config.topK.toNat = b.tokens[i] := by
    intro i hi
    obtain ⟨_, -, _, -, hd⟩ := selectToken_eq_ok.mp (hget i hi)
    exact (hstored i hi).decision hshaped (by rw [hd]) hscores
  rw [deviceRoute_of_launch hlaunch, collect_finiteScore.mpr hscores]
  show makeDecision layerId logits.rows config ⟨out.selectedIds.values, scores⟩ = .ok b
  rw [makeDecision_eq hconfig.topK_pos hsize]
  · refine decideAll_eq_ok.mpr ⟨collect_range_eq_ok.mpr ⟨hlength, fun i hi => ?_⟩, hlayer, hgroups⟩
    rw [hdecision i hi]
    rfl
  · rw [out.selectedIds.sized, hshaped.ids_rows, hshaped.ids_columns]
  · have hcount := congrArg List.length hscores
    rw [List.length_map] at hcount
    show scores.length = out.selectedIds.values.length
    rw [← hcount, out.selectedScores.sized, out.selectedIds.sized, hshaped.ids_rows,
      hshaped.ids_columns, hshaped.scores_rows, hshaped.scores_columns]
  · intro i hi rank hrank
    have hi' : i < b.tokens.length := hlength.symm ▸ hi
    have hrank' : rank < b.tokens[i].selectedExpertIds.length := by
      rw [(hstored i hi').ids_length]
      exact hrank
    have hid := (hstored i hi').ids rank hrank'
    rw [Grid.get, hshaped.ids_columns] at hid
    rw [hid]
    exact (hstored i hi').valid _ (List.getElem_mem hrank')

/-- what `std::accumulate` and the division do not accept -/
def notRenormalizable : StdError :=
  .runtime_error "selected router scores cannot be renormalized"

theorem Routed.rejected (h : Routed N logits config out) (htoken : token < logits.rows)
    (hd : selectToken N layerId (logits.row token) config = .error notRenormalizable) :
    out.selectedScores.get token 0 = nan := by
  cases hscores : normalize N config.normalization (logits.row token) with
  | ok scores =>
    cases hrouting : renormalizeIf config.renormalizeSelected
        ((partialSort scores config.topK.toNat (List.range config.expertCount.toNat)).map
          fun expert => scores.getD expert 0) with
    | ok routingScores =>
      have hok := hd.symm.trans
        (selectToken_eq_ok.mpr ⟨scores, hscores, routingScores, hrouting, rfl⟩)
      cases hok
    | error e => exact (h token htoken scores hscores).rejected e hrouting
  | error e =>
    -- the softmax fails with an error of its own
    rw [selectToken, hscores] at hd
    obtain rfl : e = notRenormalizable := Except.error.inj hd
    cases hkind : config.normalization with
    | None =>
      rw [hkind] at hscores
      cases hscores
    | Softmax =>
      rw [hkind, normalize, softmax] at hscores
      by_cases hpos : ((logits.row token).map fun score =>
          N.exp (score - maxElement (logits.row token))).sum ≤ 0
      · rw [throwIf, if_pos hpos] at hscores
        exact absurd (Except.error.inj hscores) (by decide)
      · have hok := hscores.symm.trans (throwIf_bind_of_not hpos)
        cases hok

variable [IsStrictOrderedRing K]

theorem normalize_of_exp_pos (hexp : ∀ x, 0 < N.exp x) {row : List K} (h : row ≠ []) :
    ∃ scores, normalize N config.normalization row = .ok scores := by
  cases config.normalization with
  | None => exact ⟨row, rfl⟩
  | Softmax =>
    have hpos : 0 < (row.map fun score => N.exp (score - maxElement row)).sum := by
      refine List.sum_pos _ (fun x hx => ?_) (fun he => h (List.map_eq_nil_iff.mp he))
      obtain ⟨score, -, rfl⟩ := List.mem_map.mp hx
      exact hexp _
    exact ⟨_, throwIf_bind_of_not (not_le.mpr hpos)⟩

theorem device_agrees (N : Numerics K) (layerId : LayerId) (logits : Grid K) (config : RouterConfig)
    (schedule : List Nat) (arrays : SelectionArrays K)
    (hvalid : (config.validate.exec true).1 = .ok ())
    (hcolumns : logits.columns = config.expertCount.toNat)
    (hsize : logits.rows * logits.columns < 2 ^ 64)
    (hshaped : Shaped logits.rows config.topK.toNat arrays)
    (hnodup : schedule.Nodup) (hscheduled : ∀ token < logits.rows, token ∈ schedule) :
    (∀ b, routeLogits N layerId logits config = .ok b →
      deviceRoute N layerId logits config schedule arrays = .ok b) ∧
    (∀ token < logits.rows,
      selectToken N layerId (logits.row token) config = .error notRenormalizable →
      ∃ out, launch (fun token out => some (routerTopKKernel N.exp logits config.topK.toNat
          (decide (config.normalization = .Softmax)) config.renormalizeSelected token out))
          schedule arrays = some out ∧
        ∃ rank < config.topK.toNat, (out.selectedScores.get token rank).isFinite = false) ∧
    ((∀ x, 0 < N.exp x) → ∀ b, deviceRoute N layerId logits config schedule arrays = .ok b →
      routeLogits N layerId logits config = .ok b) := by
  have hconfig := configured_of_validate hvalid
  obtain ⟨out, hlaunch, hout, hrouted⟩ :=
    routed_of_launch N ⟨hconfig, hcolumns, hshaped, hnodup, hscheduled⟩
  have hsize' : logits.rows * config.topK.toNat < 2 ^ 64 :=
    Nat.lt_of_le_of_lt (Nat.mul_le_mul_left _ (hcolumns ▸ hconfig.topK_le)) hsize
  refine ⟨fun b hb => deviceRoute_accepted hconfig hsize' hout hrouted hlaunch hb,
    fun token htoken hd => ⟨out, hlaunch, 0, hconfig.topK_pos, ?_⟩, fun hexp b hb => ?_⟩
  · rw [hrouted.rejected htoken hd]
    rfl
  · rw [deviceRoute_of_launch hlaunch] at hb
    obtain ⟨values, hvalues, hdecision⟩ := bind_eq_ok.mp hb
    have hfinite := collect_finiteScore.mp hvalues
    -- every token is decided on the host
    have hdecided : ∀ token ∈ List.range logits.rows,
        ∃ d, selectToken N layerId (logits.row token) config = .ok d := by
      intro token htoken
      have hlt := List.mem_range.mp htoken
      have hrow : logits.row token ≠ [] := by
        intro he
        have hlength := Grid.length_row (g := logits) (r := token)
        rw [he, hcolumns] at hlength
        exact absurd hlength.symm (hconfig.topK_pos.trans_le hconfig.topK_le).ne'
      obtain ⟨scores, hscores⟩ := normalize_of_exp_pos hexp hrow
      cases hrouting : renormalizeIf config.renormalizeSelected
          ((partialSort scores config.topK.toNat (List.range config.expertCount.toNat)).map
            fun expert => scores.getD expert 0) with
      | ok routingScores =>
        exact ⟨_, selectToken_eq_ok.mpr ⟨scores, hscores, routingScores, hrouting, rfl⟩⟩
      | error e =>
        have hnan := (hrouted token hlt scores hscores).rejected e hrouting
        rw [Grid.get, hfinite, getD_map_finite] at hnan
        cases hnan
    obtain ⟨tokens, htokens⟩ := exists_collect hdecided
    obtain ⟨b', hb'⟩ : ∃ b', routeLogits N layerId logits config = .ok b' :=
      ⟨⟨layerId, tokens, _⟩, decideAll_eq_ok.mpr ⟨htokens, rfl, Eq.refl ((({} : Grouped ExpertId
        (ExpertTokenGroup K)).placeAll groupOps (assignments tokens)).groups.insertionSort
          fun left right => left.expertId ≤ right.expertId)⟩⟩
    have hdevice := deviceRoute_accepted hconfig hsize' hout hrouted hlaunch hb'
    rw [deviceRoute_of_launch hlaunch] at hdevice
    rw [hb', ← hdevice.symm.trans hb]

end

end

/-! The threads of two tokens, the second one first, and one that has no token. -/

def sampleLogits : Grid ℚ := ⟨2, 3, [1, 2, 2, -1, 0, -1], rfl⟩

def sampleArrays : SelectionArrays ℚ := ⟨⟨2, 2, [9, 9, 9, 9], rfl⟩, ⟨2, 2, [nan, nan, nan, nan], rfl⟩⟩

theorem device_agrees_sample :
    ∃ b, routeLogits sampleNumerics 4 sampleLogits sampleConfig = .ok b ∧
      b.tokens.map RouterDecision.selectedExpertIds = [[1, 2], [1, 0]] ∧
      deviceRoute sampleNumerics 4 sampleLogits sampleConfig [1, 0, 2] sampleArrays = .ok b := by
  have hagrees := device_agrees sampleNumerics 4 sampleLogits sampleConfig [1, 0, 2] sampleArrays
    (by decide +kernel) rfl (by decide) ⟨rfl, rfl, rfl, rfl⟩ (by decide) (by decide)
  cases hb : routeLogits sampleNumerics 4 sampleLogits sampleConfig with
  | ok b =>
    refine ⟨b, rfl, ?_, hagrees.1 b hb⟩
    have hselected : (routeLogits sampleNumerics 4 sampleLogits sampleConfig).toOption.map
        (fun b => b.tokens.map RouterDecision.selectedExpertIds) = some [[1, 2], [1, 0]] := by
      decide +kernel
    rw [hb] at hselected
    exact Option.some.inj hselected
  | error e =>
    have hsome : (routeLogits sampleNumerics 4 sampleLogits sampleConfig).toOption.isSome = true := by
      decide +kernel
    rw [hb] at hsome
    exact nomatch hsome

end HyperMoE.Router
