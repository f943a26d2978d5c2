import HyperMoE.Lib.Numerals
import HyperMoE.Lib.Ranking
import HyperMoE.Prediction.PredictionStatistics

/-!
# ExpertPredictor: ranking the experts of the next layer

`ExpertPredictor.cpp`.  A `double` is a value of an ordered field; a division by zero is no value
(`none`).  The logarithm is one with the properties of `Logarithm`.

* `predictDetailed`         the scores of the candidates, their ranking, the filter and the cut;
* `observeAndPrefetch`      the settling of what was predicted, the recording, the new predictions and
                            their prefetch requests.

`prefetch` of the scheduler and the observer are what they answer to each prediction.  `ExpertHistory`
is left out of the state: a valid decision is recorded in it without an exception, and nothing here
reads it.
-/

namespace HyperMoE.Prediction

open Lib Lib.Fallible Lib.Numerals Tensor Router

/-- `std::log` -/
structure Logarithm (K : Type) [Field K] [LinearOrder K] where
  log : K → K
  monotone : ∀ x y, 0 < x → x ≤ y → log x ≤ log y
  log_nine_pos : 0 < log 9

/-- `std::numeric_limits<LayerId>::max()` -/
def maxLayerId : LayerId := 2 ^ 32 - 1

structure ExpertPrediction (K : Type) where
  expertId : ExpertId
  probability : K
  confidence : K
  expectedLayer : LayerId
  deriving DecidableEq

structure AdaptivePredictionConfig (K : Type) where
  maximumPredictions : Nat
  minimumConfidence : K
  minimumPrefetchConfidence : K

structure PredictionQualitySnapshot where
  opportunities : Nat := 0
  predictions : Nat := 0
  top1Correct : Nat := 0
  topKCovered : Nat := 0
  usefulPredictions : Nat := 0
  wastedPredictions : Nat := 0
  suppressedPrefetches : Nat := 0
  deriving DecidableEq

structure PredictionInput where
  currentLayer : LayerId
  recentExperts : List ExpertId

structure CandidateScore (K : Type) where
  expertId : ExpertId
  raw : K
  confidence : K

section
variable {K : Type} [Field K] [LinearOrder K]

/-- a quotient, where there is one -/
def quotient (x y : K) : Option K := if y = 0 then none else some (x / y)

def ratio (numerator denominator : K) : Option K :=
  if denominator ≤ 0 then some 0 else quotient numerator denominator

def clamp (x low high : K) : K := if x < low then low else if high < x then high else x

/-! ## predictDetailed -/

/-- one source: what it adds to the transition probability, and whether it supports the candidate -/
def addSource (candidates : List (PredictionCandidateStatistics K))
    (candidate : PredictionCandidateStatistics K) (sum : K × Nat) (source : Nat) :
    Option (K × Nat) := do
  let outgoing := (candidates.map fun peer => peer.decayedIncomingBySource.getD source 0).sum
  if 0 < outgoing then do
    let share ← quotient (candidate.decayedIncomingBySource.getD source 0) outgoing
    some (sum.1 + share,
      if 0 < candidate.decayedIncomingBySource.getD source 0 then sum.2 + 1 else sum.2)
  else some sum

/-- the largest share of the peers that the candidate was selected with -/
def cooccurrenceOf (candidate : PredictionCandidateStatistics K) : Option K :=
  (Table.values candidate.cooccurrence).foldlM (fun (cooccurrence : K) (count : Nat) => do
    let share ← ratio (count : K) candidate.frequency
    some (max cooccurrence share)) 0

/-- the body of the first loop of `predictDetailed` -/
def scoreOf (L : Logarithm K) (statistics : PredictionStatistics K) (sourceCount : Nat)
    (recentExperts : List ExpertId) (candidate : PredictionCandidateStatistics K) :
    Option (CandidateScore K) := do
  let (transitionSum, supportedSources) ←
    (List.range sourceCount).foldlM (addSource statistics.candidates candidate) (0, 0)
  let transitionProbability ← quotient transitionSum sourceCount
  let popularity ← ratio candidate.decayedFrequency statistics.decayedLayerFrequency
  let windowPopularity ← ratio (candidate.windowFrequency : K) statistics.windowLayerFrequency
  let locality : K := if candidate.expert.expertId ∈ recentExperts then 1 else 0
  let cooccurrence ← cooccurrenceOf candidate
  let raw := max 0 (50 / 100 * transitionProbability + 20 / 100 * windowPopularity +
    15 / 100 * popularity + 5 / 100 * locality + 10 / 100 * cooccurrence)
  let evidence ← quotient (L.log (1 + candidate.frequency)) (L.log 9)
  let evidence := min 1 evidence
  let agreement ←
    (if sourceCount = 0 then some 0 else quotient (supportedSources : K) sourceCount : Option K)
  let confidence := clamp (65 / 100 * evidence + 35 / 100 * agreement) 0 1
  some { expertId := candidate.expert.expertId, raw, confidence }

/-- the prediction of one candidate, before the filter -/
def predictionOf (totalRaw : K) (scoreCount : Nat) (targetLayer : LayerId)
    (score : CandidateScore K) : Option (ExpertPrediction K) := do
  let probability ←
    (if 0 < totalRaw then quotient score.raw totalRaw else quotient 1 scoreCount : Option K)
  some { expertId := score.expertId, probability, confidence := score.confidence,
         expectedLayer := targetLayer }

/-- the comparison of the sort -/
def ranksBefore (left right : ExpertPrediction K) : Prop :=
  if left.probability ≠ right.probability then right.probability < left.probability
  else if left.confidence ≠ right.confidence then right.confidence < left.confidence
  else left.expertId < right.expertId

instance : DecidableRel (ranksBefore (K := K)) := fun left right => by
  unfold ranksBefore
  infer_instance

end

structure ExpertPredictor (K : Type) [Field K] [LinearOrder K] where
  database : TransitionDatabase K
  config : AdaptivePredictionConfig K
  quality : PredictionQualitySnapshot := {}
  pendingByStream : Table StreamId (List (ExpertPrediction K)) := ∅

namespace ExpertPredictor

variable {K : Type} [Field K] [LinearOrder K]

/-- a bound that is not finite is `none` -/
def new (database : TransitionDatabase K) (maximumPredictions : Nat)
    (minimumConfidence minimumPrefetchConfidence : Option K) :
    Except StdError (ExpertPredictor K) :=
  match minimumConfidence, minimumPrefetchConfidence with
  | some minimum, some prefetch =>
    if maximumPredictions = 0 ∨ minimum < 0 ∨ 1 < minimum ∨ prefetch < 0 ∨ 1 < prefetch then
      .error (.invalid_argument "invalid expert predictor configuration")
    else .ok { database, config := ⟨maximumPredictions, minimum, prefetch⟩ }
  | _, _ => .error (.invalid_argument "invalid expert predictor configuration")

/-- the experts that a prediction follows from -/
def sourcesOf (database : TransitionDatabase K) (input : PredictionInput) : List ExpertSelection :=
  if input.recentExperts.isEmpty then database.previousSelections 0
  else input.recentExperts.map fun expert => ⟨input.currentLayer, expert⟩

/-- all candidates of the next layer with their probabilities, before the filter -/
def candidatePredictions (L : Logarithm K) (database : TransitionDatabase K)
    (input : PredictionInput) : Option (List (ExpertPrediction K)) := do
  if input.currentLayer = maxLayerId then some []
  else
    let targetLayer := input.currentLayer + 1
    let sources := sourcesOf database input
    if sources.isEmpty then some []
    else
      let statistics := database.predictionStatistics targetLayer sources
      let scores ← statistics.candidates.mapM
        (scoreOf L statistics sources.length input.recentExperts)
      let totalRaw := (scores.map CandidateScore.raw).sum
      scores.mapM (predictionOf totalRaw scores.length targetLayer)

/-- the filter, the sort and the cut -/
def rank (config : AdaptivePredictionConfig K) (predictions : List (ExpertPrediction K)) :
    List (ExpertPrediction K) :=
  let kept := predictions.filter fun p => config.minimumConfidence ≤ p.confidence
  (kept.mergeSort fun left right => decide (¬ ranksBefore right left)).take
    config.maximumPredictions

/-- without candidates the result is empty either way -/
def predictDetailed (L : Logarithm K) (p : ExpertPredictor K) (input : PredictionInput) :
    Option (List (ExpertPrediction K)) := do
  let predictions ← candidatePredictions L p.database input
  some (rank p.config predictions)

/-! ## observeAndPrefetch -/

def shouldPrefetch (config : AdaptivePredictionConfig K) (prediction : ExpertPrediction K) : Bool :=
  config.minimumPrefetchConfidence ≤ prediction.confidence ∧ 0 < prediction.probability

/-- what the collaborators answer: the observer may throw, and the scheduler gives a handle or
throws; `outOfRange` is caught -/
structure Collaborators (K : Type) where
  observer : ExpertPrediction K → Except Exn Unit
  prefetch : ExpertPrediction K → Except Exn Nat

/-- the first locked block: what was predicted for this layer is settled -/
def settlePending (decision : RouterDecision K) (streamId : StreamId) (p : ExpertPredictor K) :
    ExpertPredictor K :=
  match p.pendingByStream.lookup streamId with
  | some (front :: rest) =>
    if front.expectedLayer = decision.layerId then
      let predicted := front :: rest
      let covered := predicted.countP fun item => item.expertId ∈ decision.selectedExpertIds
      { p with
        quality := { p.quality with
          opportunities := p.quality.opportunities + 1
          top1Correct := p.quality.top1Correct +
            if front.expertId ∈ decision.selectedExpertIds then 1 else 0
          usefulPredictions := p.quality.usefulPredictions + covered
          wastedPredictions := p.quality.wastedPredictions + (predicted.length - covered)
          topKCovered := p.quality.topKCovered + if 0 < covered then 1 else 0 }
        pendingByStream := p.pendingByStream.erase streamId }
    else p
  | _ => p

/-- the requests for the predictions, one after the other -/
def prefetchLoop (config : AdaptivePredictionConfig K) (c : Collaborators K) :
    List (ExpertPrediction K) → List Nat → Fallible Exn (ExpertPredictor K) (List Nat)
  | [], handles => pure handles
  | prediction :: rest, handles => do
    settle (c.observer prediction)
    if shouldPrefetch config prediction then
      match c.prefetch prediction with
      | .ok handle => prefetchLoop config c rest (handles ++ [handle])
      | .error (.outOfRange _) => prefetchLoop config c rest handles
      | .error e => throw e
    else do
      update fun p => { p with quality :=
        { p.quality with suppressedPrefetches := p.quality.suppressedPrefetches + 1 } }
      prefetchLoop config c rest handles

def observeAndPrefetch (L : Logarithm K) (c : Collaborators K) (decision : RouterDecision K)
    (streamId : StreamId) : Fallible Exn (ExpertPredictor K) (List Nat) := do
  throwIf (¬ decision.valid) (.invalidArgument "cannot observe invalid decision")
  update (settlePending decision streamId)
  zoom ExpertPredictor.database (fun database p => { p with database := database })
    (mapError (fun _ => .invalidArgument "cannot record invalid routing decision")
      (TransitionDatabase.record decision streamId))
  let p ← read
  let predictions ← orThrow
    (p.predictDetailed L ⟨decision.layerId, decision.selectedExpertIds⟩) (.other "not a number")
  update fun p => { p with
    quality := { p.quality with predictions := p.quality.predictions + predictions.length }
    pendingByStream := p.pendingByStream.insert streamId predictions }
  prefetchLoop p.config c predictions []

end ExpertPredictor

end HyperMoE.Prediction
