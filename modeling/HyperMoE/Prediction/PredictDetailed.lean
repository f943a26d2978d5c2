import Mathlib.Algebra.Order.BigOperators.Group.List
import Mathlib.Algebra.Order.Ring.Rat
import Mathlib.Data.Prod.Lex
import HyperMoE.Lib.Distribution
import HyperMoE.Prediction.ExpertPredictor

/-!
# predictDetailed: a ranked sub-distribution

* `scoreOf_eq`                 every score is a number, its confidence between 0 and 1;
* `Distribution`               the candidates before the filter: the experts seen in the next layer,
                               with probabilities that sum to 1;
* `candidatePredictions_eq`    the loops compute one;
* `Ranked`, `ranked_rank`      the filter, the sort and the cut;
* `predictDetailed_ranked`     both, after any history.
-/

namespace HyperMoE.Prediction

open Lib Lib.Fallible Tensor Router

/-! ## loops that give a value at every step -/

theorem mapM_some {α β : Type} {f : α → Option β} {P : α → β → Prop} {l : List α}
    (h : ∀ a ∈ l, ∃ b, f a = some b ∧ P a b) : ∃ bs, l.mapM f = some bs ∧ List.Forall₂ P l bs := by
  induction l with
  | nil => exact ⟨[], rfl, .nil⟩
  | cons a l ih =>
    obtain ⟨b, hb, hp⟩ := h a List.mem_cons_self
    obtain ⟨bs, hbs, hps⟩ := ih fun a' ha' => h a' (List.mem_cons_of_mem _ ha')
    refine ⟨b :: bs, ?_, .cons hp hps⟩
    rw [List.mapM_cons, hb, hbs]
    rfl

theorem mapM_eq_map {α β : Type} {f : α → Option β} {g : α → β} {l : List α}
    (h : ∀ a ∈ l, f a = some (g a)) : l.mapM f = some (l.map g) := by
  induction l with
  | nil => rfl
  | cons a l ih =>
    rw [List.mapM_cons, h a List.mem_cons_self, ih fun a' ha' => h a' (List.mem_cons_of_mem _ ha')]
    rfl

theorem exists_of_mem_right {α β : Type} {P : α → β → Prop} {l : List α} {l' : List β}
    (h : List.Forall₂ P l l') {b : β} (hb : b ∈ l') : ∃ a ∈ l, P a b := by
  induction h with
  | nil => cases hb
  | cons hp _ ih =>
    rcases List.mem_cons.mp hb with rfl | hb
    · exact ⟨_, List.mem_cons_self, hp⟩
    · obtain ⟨a, ha, hp⟩ := ih hb
      exact ⟨a, List.mem_cons_of_mem _ ha, hp⟩

theorem foldlM_some {α β : Type} {f : β → α → Option β} {I : β → Prop} {l : List α}
    (h : ∀ b a, I b → ∃ b', f b a = some b' ∧ I b') {b : β} (hb : I b) :
    ∃ b', l.foldlM f b = some b' ∧ I b' := by
  induction l generalizing b with
  | nil => exact ⟨b, rfl, hb⟩
  | cons a l ih =>
    obtain ⟨b₁, hb₁, hi⟩ := h b a hb
    obtain ⟨b₂, hb₂, hi₂⟩ := ih hi
    refine ⟨b₂, ?_, hi₂⟩
    rw [List.foldlM_cons, hb₁]
    exact hb₂

section
variable {K : Type} [Field K] [LinearOrder K]

/-! ## scores -/

theorem quotient_of_pos {x y : K} (h : 0 < y) : quotient x y = some (x / y) := if_neg h.ne'

theorem ratio_eq (x y : K) : ∃ q, ratio x y = some q := by
  unfold ratio
  split
  · exact ⟨0, rfl⟩
  · next h => exact ⟨x / y, quotient_of_pos (not_le.mp h)⟩

theorem addSource_eq (candidates : List (PredictionCandidateStatistics K))
    (candidate : PredictionCandidateStatistics K) (sum : K × Nat) (source : Nat) :
    ∃ sum', addSource candidates candidate sum source = some sum' := by
  unfold addSource
  dsimp only
  split
  · next h =>
    rw [quotient_of_pos h]
    exact ⟨_, rfl⟩
  · exact ⟨sum, rfl⟩

theorem cooccurrenceOf_eq (candidate : PredictionCandidateStatistics K) :
    ∃ c, cooccurrenceOf candidate = some c := by
  obtain ⟨c, hc, -⟩ := foldlM_some (I := fun _ => True) (l := Table.values candidate.cooccurrence)
    (f := fun (cooccurrence : K) (count : Nat) => do
      let share ← ratio (count : K) candidate.frequency
      some (max cooccurrence share)) (fun b a _ => by
        obtain ⟨q, hq⟩ := ratio_eq (a : K) candidate.frequency
        exact ⟨max b q, by rw [hq]; rfl, trivial⟩) (b := 0) trivial
  exact ⟨c, hc⟩

variable [IsStrictOrderedRing K]

theorem clamp_mem (x : K) : 0 ≤ clamp x 0 1 ∧ clamp x 0 1 ≤ 1 := by
  unfold clamp
  split
  · exact ⟨le_refl _, zero_le_one⟩
  · next h =>
    split
    · exact ⟨zero_le_one, le_refl _⟩
    · next h' => exact ⟨not_lt.mp h, not_lt.mp h'⟩

structure Scored (candidate : PredictionCandidateStatistics K) (score : CandidateScore K) : Prop where
  expertId : score.expertId = candidate.expert.expertId
  raw : 0 ≤ score.raw
  confidence : 0 ≤ score.confidence ∧ score.confidence ≤ 1

theorem scoreOf_eq (L : Logarithm K) (statistics : PredictionStatistics K) {sourceCount : Nat}
    (hsources : sourceCount ≠ 0) (recentExperts : List ExpertId)
    (candidate : PredictionCandidateStatistics K) :
    ∃ score, scoreOf L statistics sourceCount recentExperts candidate = some score ∧
      Scored candidate score := by
  have hcount : (0 : K) < sourceCount := Nat.cast_pos.mpr (Nat.pos_of_ne_zero hsources)
  obtain ⟨⟨transitionSum, supported⟩, hsum, -⟩ := foldlM_some (I := fun _ => True)
    (l := List.range sourceCount) (f := addSource statistics.candidates candidate)
    (fun b a _ => (addSource_eq statistics.candidates candidate b a).imp fun _ h => ⟨h, trivial⟩)
    (b := (0, 0)) trivial
  obtain ⟨popularity, hpopularity⟩ :=
    ratio_eq candidate.decayedFrequency statistics.decayedLayerFrequency
  obtain ⟨window, hwindow⟩ :=
    ratio_eq (candidate.windowFrequency : K) statistics.windowLayerFrequency
  obtain ⟨cooccurrence, hcooccurrence⟩ := cooccurrenceOf_eq candidate
  unfold scoreOf
  rw [hsum, hpopularity, hwindow, hcooccurrence, quotient_of_pos L.log_nine_pos]
  dsimp only [Option.bind_eq_bind, Option.bind_some]
  rw [quotient_of_pos hcount]
  dsimp only [Option.bind_some]
  rw [if_neg hsources, quotient_of_pos hcount]
  exact ⟨_, rfl, rfl, le_max_left _ _, clamp_mem _⟩

/-! ## the distribution -/

/-- the candidates before the filter -/
structure Distribution (events : List Event) (currentLayer : LayerId)
    (l : List (ExpertPrediction K)) : Prop where
  layer : ∀ p ∈ l, p.expectedLayer = currentLayer + 1
  ids : (l.map ExpertPrediction.expertId).Nodup
  seen : ∀ p ∈ l, ∃ t ∈ decisions events, (⟨currentLayer + 1, p.expertId⟩ : ExpertSelection) ∈ t.2
  probability : ∀ p ∈ l, 0 ≤ p.probability
  confidence : ∀ p ∈ l, 0 ≤ p.confidence ∧ p.confidence ≤ 1
  total : l ≠ [] → (l.map ExpertPrediction.probability).sum = 1
  last : currentLayer = maxLayerId → l = []

omit [IsStrictOrderedRing K] in
theorem distribution_nil (events : List Event) (currentLayer : LayerId) :
    Distribution events currentLayer ([] : List (ExpertPrediction K)) where
  layer _ h := absurd h List.not_mem_nil
  ids := List.nodup_nil
  seen _ h := absurd h List.not_mem_nil
  probability _ h := absurd h List.not_mem_nil
  confidence _ h := absurd h List.not_mem_nil
  total h := absurd rfl h
  last _ := rfl

/-- `totalRaw > 0 ? score.raw / totalRaw : 1.0 / scores.size()` -/
def share (totalRaw : K) (scoreCount : Nat) (score : CandidateScore K) : K :=
  if 0 < totalRaw then score.raw / totalRaw else 1 / scoreCount

theorem predictionOf_eq (totalRaw : K) {scoreCount : Nat} (h : scoreCount ≠ 0)
    (targetLayer : LayerId) (score : CandidateScore K) :
    predictionOf totalRaw scoreCount targetLayer score =
      some ⟨score.expertId, share totalRaw scoreCount score, score.confidence, targetLayer⟩ := by
  have hcount : (0 : K) < scoreCount := Nat.cast_pos.mpr (Nat.pos_of_ne_zero h)
  unfold predictionOf share
  split
  · next hpos =>
    rw [quotient_of_pos hpos]
    rfl
  · rw [quotient_of_pos hcount]
    rfl

theorem share_nonneg {totalRaw : K} {scoreCount : Nat} {score : CandidateScore K}
    (h : 0 ≤ score.raw) : 0 ≤ share totalRaw scoreCount score := by
  unfold share
  split
  · next hpos => exact div_nonneg h hpos.le
  · exact div_nonneg zero_le_one (Nat.cast_nonneg _)

theorem sum_share {scores : List (CandidateScore K)} (h : scores ≠ []) :
    (scores.map (share (scores.map CandidateScore.raw).sum scores.length)).sum = 1 := by
  unfold share
  split
  · next hpos =>
    rw [Lib.sum_map_div, div_self hpos.ne']
  · have hcount : (scores.length : K) ≠ 0 :=
      Nat.cast_ne_zero.mpr (List.length_pos_iff.mpr h).ne'
    rw [List.map_const', List.sum_replicate, nsmul_eq_mul, one_div, mul_inv_cancel₀ hcount]

theorem candidatePredictions_eq {events : List Event} {db : TransitionDatabase K}
    (h : Represents events db) (L : Logarithm K) (input : PredictionInput) :
    ∃ l, ExpertPredictor.candidatePredictions L db input = some l ∧
      Distribution events input.currentLayer l := by
  unfold ExpertPredictor.candidatePredictions
  split
  · exact ⟨[], rfl, distribution_nil events _⟩
  · next hlayer =>
    dsimp only
    split
    · exact ⟨[], rfl, distribution_nil events _⟩
    · next hsources =>
      have hcount : (ExpertPredictor.sourcesOf db input).length ≠ 0 := fun e =>
        hsources (List.isEmpty_iff_length_eq_zero.mpr e)
      have hread : StatisticsRead _ _ _ (input.currentLayer + 1) (ExpertPredictor.sourcesOf db input)
          _ := TransitionDatabase.statistics_read h
      generalize db.predictionStatistics (input.currentLayer + 1)
        (ExpertPredictor.sourcesOf db input) = statistics at hread
      obtain ⟨scores, hscores, hscored⟩ := mapM_some (l := statistics.candidates)
        fun c _ => scoreOf_eq L statistics hcount input.recentExperts c
      have hids : scores.map CandidateScore.expertId =
          statistics.candidates.map fun c => c.expert.expertId := by
        have hforall : List.Forall₂ (fun c score => c.expert.expertId = CandidateScore.expertId score)
            statistics.candidates scores := hscored.imp fun _ _ hs => hs.expertId.symm
        have hmap := List.forall₂_map_left_iff.mpr (List.forall₂_map_right_iff.mpr hforall)
        rw [List.forall₂_eq_eq_eq] at hmap
        exact hmap.symm
      have hseen : ∀ score ∈ scores, ∃ t ∈ decisions events,
          (⟨input.currentLayer + 1, score.expertId⟩ : ExpertSelection) ∈ t.2 := by
        intro score hscore
        obtain ⟨c, hc, hs⟩ := exists_of_mem_right hscored hscore
        obtain ⟨hclayer, hcseen⟩ := (hread.experts c.expert).mp (List.mem_map_of_mem hc)
        rw [hs.expertId, ← hclayer]
        exact hcseen
      let total := (scores.map CandidateScore.raw).sum
      let predict : CandidateScore K → ExpertPrediction K := fun score =>
        ⟨score.expertId, share total scores.length score, score.confidence, input.currentLayer + 1⟩
      have hmap : scores.mapM (predictionOf total scores.length (input.currentLayer + 1)) =
          some (scores.map predict) :=
        mapM_eq_map fun score hscore =>
          predictionOf_eq total (List.length_pos_of_mem hscore).ne' _ score
      refine ⟨scores.map predict, ?_, ?_, ?_, ?_, ?_, ?_, ?_, fun hlast => absurd hlast hlayer⟩
      · rw [hscores]
        exact hmap
      · exact List.forall_mem_map.mpr fun _ _ => rfl
      · rw [List.map_map]
        show (scores.map CandidateScore.expertId).Nodup
        rw [hids]
        exact (List.pairwise_map.mpr hread.sorted).imp Nat.ne_of_lt
      · exact List.forall_mem_map.mpr hseen
      · refine List.forall_mem_map.mpr fun score hscore => share_nonneg ?_
        obtain ⟨c, -, hs⟩ := exists_of_mem_right hscored hscore
        exact hs.raw
      · refine List.forall_mem_map.mpr fun score hscore => ?_
        obtain ⟨c, -, hs⟩ := exists_of_mem_right hscored hscore
        exact hs.confidence
      · intro hne
        rw [List.map_map]
        exact sum_share fun he => hne (by rw [he]; rfl)

/-! ## the filter, the sort and the cut -/

/-- what is returned of the candidates `l` -/
structure Ranked (config : AdaptivePredictionConfig K) (l result : List (ExpertPrediction K)) :
    Prop where
  mem : ∀ p ∈ result, p ∈ l ∧ config.minimumConfidence ≤ p.confidence
  ids : (result.map ExpertPrediction.expertId).Nodup
  length : result.length ≤ config.maximumPredictions
  sorted : result.Pairwise ranksBefore
  omitted : ∀ c ∈ l, config.minimumConfidence ≤ c.confidence → c ∉ result →
    ∀ p ∈ result, ranksBefore p c

omit [IsStrictOrderedRing K]

/-- the order of the sort as that of a key -/
def rankKey (p : ExpertPrediction K) : Kᵒᵈ ×ₗ Kᵒᵈ ×ₗ ExpertId :=
  toLex (OrderDual.toDual p.probability, toLex (OrderDual.toDual p.confidence, p.expertId))

omit [Field K] in
theorem ranksBefore_iff (a b : ExpertPrediction K) : ranksBefore a b ↔ rankKey a < rankKey b := by
  unfold ranksBefore rankKey
  rw [Prod.Lex.toLex_lt_toLex, Prod.Lex.toLex_lt_toLex]
  simp only [OrderDual.toDual_lt_toDual, OrderDual.toDual_inj]
  by_cases hp : a.probability = b.probability
  · by_cases hc : a.confidence = b.confidence
    · simp [hp, hc]
    · simp [hp, hc]
  · simp [hp]

omit [Field K] [LinearOrder K] in
/-- predictions of different experts have different keys -/
theorem rankKey_inj {l : List (ExpertPrediction K)} (h : (l.map ExpertPrediction.expertId).Nodup) :
    ∀ a ∈ l, ∀ b ∈ l, rankKey a = rankKey b → a = b := by
  intro a ha b hb hkey
  refine List.inj_on_of_nodup_map h ha hb ?_
  exact congrArg (fun k => (ofLex (ofLex k).2).2) hkey

omit [Field K] in
theorem ranked_rank (config : AdaptivePredictionConfig K) {l : List (ExpertPrediction K)}
    (h : (l.map ExpertPrediction.expertId).Nodup) :
    Ranked config l (ExpertPredictor.rank config l) := by
  let kept := l.filter fun p => config.minimumConfidence ≤ p.confidence
  have hkept : (kept.map ExpertPrediction.expertId).Nodup := h.sublist (List.filter_sublist.map _)
  have hleading : Leading ranksBefore kept (ExpertPredictor.rank config l) :=
    leading_mergeSort ranksBefore_iff (rankKey_inj hkept) hkept.of_map _
  refine ⟨fun p hp => ?_, ?_, ?_, hleading.sorted, fun c hc hconf hout p hp => ?_⟩
  · have hmem := List.mem_filter.mp (hleading.mem p hp)
    exact ⟨hmem.1, of_decide_eq_true hmem.2⟩
  · have hperm := (List.mergeSort_perm kept fun left right => decide (¬ ranksBefore right left)).map
      ExpertPrediction.expertId
    exact (hperm.nodup_iff.mpr hkept).sublist ((List.take_sublist _ _).map _)
  · exact (List.length_take_le _ _)
  · exact hleading.omitted p hp c (List.mem_filter.mpr ⟨hc, decide_eq_true hconf⟩) hout

end

/-! ## after any history -/

section
variable {K : Type} [Field K] [LinearOrder K] [IsStrictOrderedRing K] {recentWindow : Nat} {d : K}
  {db : TransitionDatabase K}

omit [IsStrictOrderedRing K] in
theorem new_predictor_eq_ok {database : TransitionDatabase K} {maximumPredictions : Nat}
    {minimum prefetch : Option K} {p : ExpertPredictor K}
    (h : ExpertPredictor.new database maximumPredictions minimum prefetch = .ok p) :
    p.database = database ∧ minimum = some p.config.minimumConfidence ∧
      p.config.maximumPredictions = maximumPredictions ∧ p.quality = {} ∧ p.pendingByStream = ∅ := by
  unfold ExpertPredictor.new at h
  split at h
  · split at h
    · cases h
    · obtain rfl := Except.ok.inj h
      exact ⟨rfl, rfl, rfl, rfl, rfl⟩
  · cases h

/-- the candidates form a distribution, and the result is its ranked beginning -/
theorem predictDetailed_ranked (h : TransitionDatabase.new recentWindow (some d) = .ok db)
    (calls : List (Call K)) (maximumPredictions : Nat) (minimum prefetch : Option K)
    {p : ExpertPredictor K}
    (hp : ExpertPredictor.new (run db calls) maximumPredictions minimum prefetch = .ok p)
    (L : Logarithm K) (input : PredictionInput) :
    ∃ candidates result,
      ExpertPredictor.candidatePredictions L p.database input = some candidates ∧
      p.predictDetailed L input = some result ∧
      Distribution (history calls) input.currentLayer candidates ∧
      Ranked p.config candidates result := by
  obtain ⟨hdatabase, -⟩ := new_predictor_eq_ok hp
  have hrepresents : Represents (history calls) p.database :=
    hdatabase ▸ run_represents (new_eq_ok h).1
  obtain ⟨candidates, hcandidates, hdistribution⟩ :=
    candidatePredictions_eq hrepresents L input
  refine ⟨candidates, _, hcandidates, ?_, hdistribution, ranked_rank p.config hdistribution.ids⟩
  unfold ExpertPredictor.predictDetailed
  rw [hcandidates]
  rfl

end

/-- a logarithm that is exact at 1 -/
def sampleLogarithm : Logarithm ℚ where
  log x := x - 1
  monotone _ _ _ h := sub_le_sub_right h 1
  log_nine_pos := by decide +kernel

def samplePredictor : ExpertPredictor ℚ where
  database := run sampleDatabase sampleCalls
  config := ⟨3, 0, 1 / 5⟩

theorem predictDetailed_ranked_sample : ∃ candidates result,
    ExpertPredictor.candidatePredictions sampleLogarithm (run sampleDatabase sampleCalls)
      ⟨0, [2]⟩ = some candidates ∧
    samplePredictor.predictDetailed sampleLogarithm ⟨0, [2]⟩ = some result ∧
    Distribution (history sampleCalls) 0 candidates ∧ Ranked samplePredictor.config candidates result :=
  predictDetailed_ranked (dif_pos ⟨by decide, by decide +kernel, by decide +kernel⟩) sampleCalls 3
    (some 0) (some (1 / 5)) (if_neg (by decide +kernel)) sampleLogarithm ⟨0, [2]⟩

end HyperMoE.Prediction
