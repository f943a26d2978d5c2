import HyperMoE.Prediction.PredictDetailed

/-!
# The quality counters of the predictor

A prediction is settled when the next decision of its stream is for its layer; a decision for another
layer replaces what is pending, and then it counts neither as useful nor as wasted.

* `Observation`, `observeAll`   calls of `observeAndPrefetch`, each with its collaborators;
* `overwritten`                 the predictions that the calls replace unsettled;
* `Balanced`                    the counters add up;
* `Balanced.settle`, `Balanced.call`   the first locked block, and a whole call;
* `run_balanced`                any sequence of calls.
-/

namespace HyperMoE.Prediction

open Lib Lib.Fallible Tensor Router

variable {K : Type} [Field K] [LinearOrder K]

structure Observation (K : Type) where
  collaborators : ExpertPredictor.Collaborators K
  decision : RouterDecision K
  streamId : StreamId

/-- the predictor after one call, whether or not it throws -/
def observeOne (L : Logarithm K) (p : ExpertPredictor K) (o : Observation K) : ExpertPredictor K :=
  ((ExpertPredictor.observeAndPrefetch L o.collaborators o.decision o.streamId).exec p).2

def observeAll (L : Logarithm K) (p : ExpertPredictor K) (os : List (Observation K)) :
    ExpertPredictor K :=
  os.foldl (observeOne L) p

namespace ExpertPredictor

def pendingTotal (p : ExpertPredictor K) : Nat := Table.total List.length p.pendingByStream

def pendingOf (p : ExpertPredictor K) (streamId : StreamId) : List (ExpertPrediction K) :=
  (p.pendingByStream.lookup streamId).getD []

/-- the predictions of the stream for a layer other than that of the decision -/
def unsettled (p : ExpertPredictor K) (o : Observation K) : Nat :=
  if o.decision.valid then ((settlePending o.decision o.streamId p).pendingOf o.streamId).length else 0

end ExpertPredictor

/-- the predictions replaced unsettled in the course of the calls -/
def overwritten (L : Logarithm K) (p : ExpertPredictor K) : List (Observation K) → Nat
  | [] => 0
  | o :: os => p.unsettled o + overwritten L (observeOne L p o) os

structure Balanced (p : ExpertPredictor K) (lost : Nat) : Prop where
  predictions : p.quality.predictions =
    p.quality.usefulPredictions + p.quality.wastedPredictions + p.pendingTotal + lost
  top1Correct : p.quality.top1Correct ≤ p.quality.topKCovered
  topKCovered : p.quality.topKCovered ≤ p.quality.opportunities

section
variable {p : ExpertPredictor K} {lost : Nat}

theorem Balanced.settle (h : Balanced p lost) (decision : RouterDecision K) (streamId : StreamId) :
    Balanced (p.settlePending decision streamId) lost := by
  unfold ExpertPredictor.settlePending
  split
  · next front rest hpending =>
    split
    · have htotal := Table.total_erase List.length hpending
      have hle : (front :: rest).countP (fun item => item.expertId ∈ decision.selectedExpertIds) ≤
          (front :: rest).length := List.countP_le_length
      refine ⟨?_, ?_, ?_⟩
      · have := h.predictions
        unfold ExpertPredictor.pendingTotal at this ⊢
        dsimp only
        omega
      · have hfirst : front.expertId ∈ decision.selectedExpertIds →
            0 < (front :: rest).countP fun item => item.expertId ∈ decision.selectedExpertIds :=
          fun hmem => List.countP_pos_iff.mpr ⟨front, List.mem_cons_self, decide_eq_true hmem⟩
        have := h.top1Correct
        dsimp only
        split
        · next hmem =>
          rw [if_pos (hfirst hmem)]
          omega
        · omega
      · have := h.topKCovered
        dsimp only
        split <;> omega
    · exact h
  · exact h

/-- new predictions take the place of the pending ones of their stream -/
theorem Balanced.replace (h : Balanced p lost) (streamId : StreamId)
    (predictions : List (ExpertPrediction K)) (database : TransitionDatabase K) :
    Balanced { p with
      database := database
      quality := { p.quality with predictions := p.quality.predictions + predictions.length }
      pendingByStream := p.pendingByStream.insert streamId predictions }
      (lost + (p.pendingOf streamId).length) := by
  refine ⟨?_, h.top1Correct, h.topKCovered⟩
  have hbefore := h.predictions
  unfold ExpertPredictor.pendingTotal ExpertPredictor.pendingOf at *
  dsimp only
  cases hpending : p.pendingByStream.lookup streamId with
  | none =>
    rw [Table.total_insert_new _ hpending]
    simp only [Option.getD_none, List.length_nil]
    omega
  | some pending =>
    have := Table.total_insert List.length (w := predictions) hpending
    simp only [Option.getD_some]
    omega

/-- the requests touch no counter but that of the suppressed ones -/
theorem leaves_prefetchLoop (config : AdaptivePredictionConfig K)
    (c : ExpertPredictor.Collaborators K) (l : List (ExpertPrediction K)) (handles : List Nat) :
    Leaves (fun p : ExpertPredictor K => (p.database, p.config, p.pendingByStream,
      { p.quality with suppressedPrefetches := 0 }))
      (ExpertPredictor.prefetchLoop config c l handles) := by
  induction l generalizing handles with
  | nil => exact leaves_pure handles
  | cons prediction rest ih =>
    unfold ExpertPredictor.prefetchLoop
    refine Leaves.bind (fun _ => rfl) fun _ => leaves_ite _ ?_ ?_
    · split
      · exact ih _
      · exact ih _
      · exact fun _ => rfl
    · exact Leaves.bind (leaves_update fun _ => rfl) fun _ => ih _

theorem Balanced.of_core {p' : ExpertPredictor K} (h : Balanced p lost)
    (hcore : ((p'.database, p'.config, p'.pendingByStream,
      { p'.quality with suppressedPrefetches := 0 }) : _ × _ × _ × PredictionQualitySnapshot) =
        (p.database, p.config, p.pendingByStream, { p.quality with suppressedPrefetches := 0 })) :
    Balanced p' lost := by
  simp only [Prod.mk.injEq, PredictionQualitySnapshot.mk.injEq] at hcore
  obtain ⟨-, -, hpending, hopportunities, hpredictions, htop1, hcovered, huseful, hwasted, -⟩ := hcore
  refine ⟨?_, ?_, ?_⟩
  · unfold ExpertPredictor.pendingTotal
    rw [hpredictions, huseful, hwasted, hpending]
    exact h.predictions
  · rw [htop1, hcovered]
    exact h.top1Correct
  · rw [hcovered, hopportunities]
    exact h.topKCovered

theorem exec_record {decision : RouterDecision K} (h : decision.valid) (streamId : StreamId)
    (db : TransitionDatabase K) :
    (TransitionDatabase.record decision streamId).exec db =
      (.ok (), db.observe streamId (selections decision)) := by
  unfold TransitionDatabase.record
  rw [exec_throwIf_bind, if_neg (not_not.mpr h)]
  rfl

variable [IsStrictOrderedRing K] {events : List Event}

theorem Balanced.call (L : Logarithm K) (h : Balanced p lost) (hr : Represents events p.database)
    (o : Observation K) : Balanced (observeOne L p o) (lost + p.unsettled o) ∧
      ∃ events', Represents events' (observeOne L p o).database := by
  have hspec : wp (ExpertPredictor.observeAndPrefetch L o.collaborators o.decision o.streamId)
      (fun _ p' => Balanced p' (lost + p.unsettled o) ∧ ∃ events', Represents events' p'.database)
      p := by
    unfold ExpertPredictor.observeAndPrefetch ExpertPredictor.unsettled
    rw [wp_bind, wp_throwIf]
    by_cases hvalid : o.decision.valid
    · let settled := p.settlePending o.decision o.streamId
      let database := settled.database.observe o.streamId (selections o.decision)
      have hdatabase : settled.database = p.database := by
        show (p.settlePending _ _).database = _
        unfold ExpertPredictor.settlePending
        split
        · split <;> rfl
        · rfl
      have hr' : Represents (events ++ [⟨o.streamId, some (selections o.decision)⟩]) database := by
        show Represents _ (settled.database.observe _ _)
        rw [hdatabase]
        exact hr.observe _ _
      obtain ⟨candidates, hcandidates, -⟩ := candidatePredictions_eq hr' L
        ⟨o.decision.layerId, o.decision.selectedExpertIds⟩
      rw [if_neg (not_not.mpr hvalid), if_pos hvalid]
      simp only [wp_bind, wp_update, wp_zoom]
      refine wp_mapError ?_
      rw [wp_def, exec_record hvalid]
      have hpredicted : ExpertPredictor.predictDetailed L { settled with database := database }
          ⟨o.decision.layerId, o.decision.selectedExpertIds⟩ =
            some (ExpertPredictor.rank settled.config candidates) := by
        unfold ExpertPredictor.predictDetailed
        rw [hcandidates]
        rfl
      let predictions := ExpertPredictor.rank settled.config candidates
      let replaced : ExpertPredictor K := { settled with
        database := database
        quality := { settled.quality with
          predictions := settled.quality.predictions + predictions.length }
        pendingByStream := settled.pendingByStream.insert o.streamId predictions }
      have hreplaced : Balanced replaced (lost + (settled.pendingOf o.streamId).length) :=
        (h.settle o.decision o.streamId).replace o.streamId predictions database
      dsimp only
      rw [wp_read]
      dsimp only
      change wp (orThrow (ExpertPredictor.predictDetailed L { settled with database := database }
        ⟨o.decision.layerId, o.decision.selectedExpertIds⟩) _) _ _
      rw [hpredicted, wp_orThrow]
      dsimp only
      change wp (ExpertPredictor.prefetchLoop settled.config o.collaborators predictions []) _ replaced
      have hcore := leaves_prefetchLoop settled.config o.collaborators predictions [] replaced
      rw [wp_def]
      refine ⟨hreplaced.of_core hcore,
        events ++ [⟨o.streamId, some (selections o.decision)⟩], ?_⟩
      rw [(Prod.mk.inj hcore).1]
      exact hr'
    · rw [if_pos hvalid, if_neg hvalid]
      exact ⟨h, events, hr⟩
  exact hspec

theorem Balanced.calls (L : Logarithm K) (h : Balanced p lost) (hr : Represents events p.database)
    (os : List (Observation K)) : Balanced (observeAll L p os) (lost + overwritten L p os) := by
  induction os generalizing p lost events with
  | nil => exact h
  | cons o os ih =>
    obtain ⟨hnext, events', hr'⟩ := h.call L hr o
    have := ih hnext hr'
    rwa [Nat.add_assoc] at this

end

/-- what was predicted is useful, wasted, pending or overwritten, after any calls from any history -/
theorem run_balanced [IsStrictOrderedRing K] {recentWindow : Nat} {d : K}
    {db : TransitionDatabase K} (h : TransitionDatabase.new recentWindow (some d) = .ok db)
    (calls : List (Call K)) (maximumPredictions : Nat) (minimum prefetch : Option K)
    {p : ExpertPredictor K}
    (hp : ExpertPredictor.new (run db calls) maximumPredictions minimum prefetch = .ok p)
    (L : Logarithm K) (os : List (Observation K)) :
    Balanced (observeAll L p os) (overwritten L p os) := by
  obtain ⟨hdatabase, -, -, hquality, hpending⟩ := new_predictor_eq_ok hp
  have hr : Represents (history calls) p.database := hdatabase ▸ run_represents (new_eq_ok h).1
  have hstart : Balanced p 0 := by
    refine ⟨?_, ?_, ?_⟩
    · unfold ExpertPredictor.pendingTotal
      rw [hquality, hpending]
      rfl
    · rw [hquality]
    · rw [hquality]
  have := hstart.calls L hr os
  rwa [Nat.zero_add] at this

def silent : ExpertPredictor.Collaborators ℚ where
  observer _ := .ok ()
  prefetch _ := .ok 0

/-- after layers 0 and 1, layer 0 predicts layer 1, and then layer 5 comes -/
def sampleObservations : List (Observation ℚ) :=
  [⟨silent, ⟨0, [1], [1]⟩, 0⟩, ⟨silent, ⟨1, [2], [1]⟩, 0⟩, ⟨silent, ⟨0, [1], [1]⟩, 0⟩,
    ⟨silent, ⟨5, [0], [1]⟩, 0⟩]

def freshPredictor : ExpertPredictor ℚ where
  database := sampleDatabase
  config := ⟨3, 0, 1 / 5⟩

theorem run_balanced_sample :
    Balanced (observeAll sampleLogarithm freshPredictor sampleObservations)
      (overwritten sampleLogarithm freshPredictor sampleObservations) ∧
    overwritten sampleLogarithm freshPredictor sampleObservations = 1 :=
  ⟨run_balanced (dif_pos ⟨by decide, by decide +kernel, by decide +kernel⟩) [] 3 (some 0)
    (some (1 / 5)) (p := freshPredictor) (if_neg (by decide +kernel)) sampleLogarithm sampleObservations, by decide +kernel⟩

/-- the prediction for layer 1 is neither useful nor wasted nor pending -/
theorem overwritten_uncounted :
    let p := observeAll sampleLogarithm freshPredictor sampleObservations
    p.quality.predictions ≠
      p.quality.usefulPredictions + p.quality.wastedPredictions + p.pendingTotal := by
  decide +kernel

end HyperMoE.Prediction
