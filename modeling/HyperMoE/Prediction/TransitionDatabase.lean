import HyperMoE.Lib.Decay
import HyperMoE.Lib.Fallible
import HyperMoE.Router.CpuRouterBackend

/-!
# TransitionDatabase: what the predictor learns from

`TransitionDatabase.cpp`, with the selections of `ExpertHistory.hpp`.  A `double` is a value of an
ordered field, so the decay is exact; the 64-bit counters are taken as unbounded.  A hash table is
read in the order of its model; the order is lost when the candidates are sorted.

* `record`, `endStream`          one decision of a stream, and the end of one;
* `frequency` ... `previousSelections`   the readers;
* `predictionStatistics`         everything about the experts of one layer at once.

The mutex is left out: each operation is one step.  `snapshot` copies the tables.
-/

namespace HyperMoE.Prediction

open Lib Lib.Fallible Tensor Router

structure ExpertSelection where
  layerId : LayerId
  expertId : ExpertId
  deriving DecidableEq, Repr

/-- from the `source` to the `target` -/
structure ExpertTransition where
  source : ExpertSelection
  target : ExpertSelection
  deriving DecidableEq, Repr

structure ExpertCooccurrence where
  first : ExpertSelection
  second : ExpertSelection
  deriving DecidableEq, Repr

/-- `last` is `lastObservation` -/
abbrev DecayedCounter (K : Type) := Lazy K

def less (left right : ExpertSelection) : Prop :=
  left.layerId < right.layerId ∨ (left.layerId = right.layerId ∧ left.expertId < right.expertId)

instance (left right : ExpertSelection) : Decidable (less left right) :=
  inferInstanceAs (Decidable (_ < _ ∨ (_ = _ ∧ _ < _)))

def orderedPair (first second : ExpertSelection) : ExpertCooccurrence :=
  if less second first then ⟨second, first⟩ else ⟨first, second⟩

abbrev StreamId := Nat

structure TransitionDatabase (K : Type) [Field K] [LinearOrder K] where
  recentWindow : Nat
  decayFactor : K
  recentWindow_pos : recentWindow ≠ 0
  decayFactor_pos : 0 < decayFactor
  decayFactor_le_one : decayFactor ≤ 1
  observations : Nat := 0
  frequencies : Table ExpertSelection Nat := ∅
  transitions : Table ExpertTransition Nat := ∅
  decayedFrequency : Table ExpertSelection (DecayedCounter K) := ∅
  decayedTransitions : Table ExpertTransition (DecayedCounter K) := ∅
  cooccurrence : Table ExpertCooccurrence Nat := ∅
  previousByStream : Table StreamId (List ExpertSelection) := ∅
  recent : List (List ExpertSelection) := []

namespace TransitionDatabase

variable {K : Type} [Field K] [LinearOrder K]

/-- a factor that is not finite is `none` -/
def new (recentWindow : Nat) (decayFactor : Option K) : Except StdError (TransitionDatabase K) :=
  match decayFactor with
  | none => .error (.invalid_argument "invalid transition database configuration")
  | some d =>
    if h : recentWindow ≠ 0 ∧ 0 < d ∧ d ≤ 1 then
      .ok { recentWindow := recentWindow, decayFactor := d, recentWindow_pos := h.1,
            decayFactor_pos := h.2.1, decayFactor_le_one := h.2.2 }
    else .error (.invalid_argument "invalid transition database configuration")

variable (db : TransitionDatabase K)

def decayedValue (counter : DecayedCounter K) : K :=
  counter.value * db.decayFactor ^ (db.observations - counter.last)

def increment (counter : DecayedCounter K) : DecayedCounter K :=
  ⟨db.decayedValue counter + 1, db.observations⟩

/-! ## recording -/

/-- `++frequency_[expert]; increment(decayedFrequency_[expert]);` -/
def countExpert (expert : ExpertSelection) : TransitionDatabase K :=
  { db with
    frequencies := db.frequencies.adjust (· + 1) 0 expert
    decayedFrequency := db.decayedFrequency.adjust db.increment ⟨0, 0⟩ expert }

/-- `++transitions_[transition]; increment(decayedTransitions_[transition]);` -/
def countTransition (transition : ExpertTransition) : TransitionDatabase K :=
  { db with
    transitions := db.transitions.adjust (· + 1) 0 transition
    decayedTransitions := db.decayedTransitions.adjust db.increment ⟨0, 0⟩ transition }

def countPair (pair : ExpertCooccurrence) : TransitionDatabase K :=
  { db with cooccurrence := db.cooccurrence.adjust (· + 1) 0 pair }

end TransitionDatabase

/-- the transitions from one selection to the next, in the order of the two loops -/
def transitionsBetween (previous current : List ExpertSelection) : List ExpertTransition :=
  previous.flatMap fun source => current.map fun target => ⟨source, target⟩

/-- the pairs `left < right`, by index -/
def pairsOf : List ExpertSelection → List ExpertCooccurrence
  | [] => []
  | left :: rest => rest.map (orderedPair left) ++ pairsOf rest

/-- `while (recent_.size() > recentWindow_) recent_.pop_front();` -/
def popFront (recentWindow : Nat) : List (List ExpertSelection) → List (List ExpertSelection)
  | [] => []
  | oldest :: rest =>
    if (oldest :: rest).length > recentWindow then popFront recentWindow rest else oldest :: rest

/-- `current` of a decision -/
def selections {K : Type} (decision : RouterDecision K) : List ExpertSelection :=
  decision.selectedExpertIds.map fun expert => ⟨decision.layerId, expert⟩

namespace TransitionDatabase

variable {K : Type} [Field K] [LinearOrder K]

/-- the body of `record` under the mutex -/
def observe (streamId : StreamId) (current : List ExpertSelection) (db : TransitionDatabase K) :
    TransitionDatabase K :=
  let previous := db.previousByStream.lookup streamId
  let db := current.foldl countExpert db
  let db := match previous with
    | none => db
    | some previous => (transitionsBetween previous current).foldl countTransition db
  let db := (pairsOf current).foldl countPair db
  { db with
    previousByStream := db.previousByStream.insert streamId current
    recent := popFront db.recentWindow (db.recent ++ [current])
    observations := db.observations + 1 }

/-- the overload without a stream is a call with stream 0 -/
def record (decision : RouterDecision K) (streamId : StreamId) :
    Fallible StdError (TransitionDatabase K) Unit := do
  throwIf (¬ decision.valid) (.invalid_argument "cannot record invalid routing decision")
  update (observe streamId (selections decision))

def endStream (streamId : StreamId) : Fallible StdError (TransitionDatabase K) Unit :=
  update fun db => { db with previousByStream := db.previousByStream.erase streamId }

/-! ## reading -/

variable (db : TransitionDatabase K)

def frequency (expert : ExpertSelection) : Nat := (db.frequencies.lookup expert).getD 0

def transitionCount (source target : ExpertSelection) : Nat :=
  (db.transitions.lookup ⟨source, target⟩).getD 0

def cooccurrenceCount (first second : ExpertSelection) : Nat :=
  if first = second then 0 else (db.cooccurrence.lookup (orderedPair first second)).getD 0

def previousSelections (streamId : StreamId) : List ExpertSelection :=
  (db.previousByStream.lookup streamId).getD []

end TransitionDatabase

structure PredictionCandidateStatistics (K : Type) where
  expert : ExpertSelection
  frequency : Nat
  incomingBySource : List Nat
  cooccurrence : Table ExpertId Nat := ∅
  decayedFrequency : K
  windowFrequency : Nat := 0
  decayedIncomingBySource : List K

structure PredictionStatistics (K : Type) where
  layerFrequency : Nat := 0
  outgoingBySource : List Nat
  candidates : List (PredictionCandidateStatistics K) := []
  decayedLayerFrequency : K
  windowLayerFrequency : Nat := 0

namespace TransitionDatabase

variable {K : Type} [Field K] [LinearOrder K] (db : TransitionDatabase K)

/-- `counters.find(k)`, read where there is one; the target is 0 before -/
def decayedAt {κ : Type} [DecidableEq κ] (counters : Table κ (DecayedCounter K)) (k : κ) : K :=
  match counters.lookup k with
  | some counter => db.decayedValue counter
  | none => 0

/-- the first loop, for one entry of `frequency_` -/
def addCandidate (targetLayer : LayerId) (sources : List ExpertSelection)
    (result : PredictionStatistics K) (entry : Sigma fun _ : ExpertSelection => Nat) :
    PredictionStatistics K :=
  if entry.1.layerId ≠ targetLayer then result
  else
    let candidate : PredictionCandidateStatistics K :=
      { expert := entry.1
        frequency := entry.2
        incomingBySource := List.replicate sources.length 0
        decayedFrequency := db.decayedAt db.decayedFrequency entry.1
        decayedIncomingBySource := List.replicate sources.length 0 }
    { result with
      layerFrequency := result.layerFrequency + entry.2
      decayedLayerFrequency := result.decayedLayerFrequency + candidate.decayedFrequency
      candidates := result.candidates ++ [candidate] }

/-- `++found->windowFrequency` for the first candidate that is the expert -/
def bumpWindow (selection : ExpertSelection) :
    List (PredictionCandidateStatistics K) → List (PredictionCandidateStatistics K)
  | [] => []
  | candidate :: rest =>
    if candidate.expert = selection then
      { candidate with windowFrequency := candidate.windowFrequency + 1 } :: rest
    else candidate :: bumpWindow selection rest

/-- the second loop, for one selection of the window -/
def countWindow (targetLayer : LayerId) (result : PredictionStatistics K)
    (selection : ExpertSelection) : PredictionStatistics K :=
  if selection.layerId ≠ targetLayer then result
  else
    { result with
      windowLayerFrequency := result.windowLayerFrequency + 1
      candidates := bumpWindow selection result.candidates }

/-- the third loop, for one source and one candidate -/
def readIncoming (source : ExpertSelection) (sourceIndex : Nat)
    (candidate : PredictionCandidateStatistics K) : PredictionCandidateStatistics K :=
  { candidate with
    incomingBySource := match db.transitions.lookup ⟨source, candidate.expert⟩ with
      | some count => candidate.incomingBySource.set sourceIndex count
      | none => candidate.incomingBySource
    decayedIncomingBySource := match db.decayedTransitions.lookup ⟨source, candidate.expert⟩ with
      | some counter => candidate.decayedIncomingBySource.set sourceIndex (db.decayedValue counter)
      | none => candidate.decayedIncomingBySource }

/-- the same with the sum over the candidates, for one source -/
def addSource (result : PredictionStatistics K) (source : ExpertSelection × Nat) :
    PredictionStatistics K :=
  { result with
    candidates := result.candidates.map (db.readIncoming source.1 source.2)
    outgoingBySource := result.candidates.foldl (fun outgoing candidate =>
      match db.transitions.lookup ⟨source.1, candidate.expert⟩ with
      | some count => outgoing.modify source.2 (· + count)
      | none => outgoing) result.outgoingBySource }

/-- the last loop, for one candidate -/
def readCooccurrence (candidates : List (PredictionCandidateStatistics K))
    (candidate : PredictionCandidateStatistics K) : PredictionCandidateStatistics K :=
  { candidate with
    cooccurrence := candidates.foldl (fun pairs peer =>
      if candidate.expert = peer.expert then pairs
      else match db.cooccurrence.lookup (orderedPair candidate.expert peer.expert) with
        | some count =>
          if (pairs.lookup peer.expert.expertId).isSome then pairs
          else pairs.insert peer.expert.expertId count
        | none => pairs) candidate.cooccurrence }

def predictionStatistics (targetLayer : LayerId) (sources : List ExpertSelection) :
    PredictionStatistics K :=
  let result : PredictionStatistics K :=
    { outgoingBySource := List.replicate sources.length 0, decayedLayerFrequency := 0 }
  let result := db.frequencies.entries.foldl (db.addCandidate targetLayer sources) result
  let result := db.recent.flatten.foldl (countWindow targetLayer) result
  let result := { result with
    candidates := result.candidates.mergeSort fun left right =>
      decide (left.expert.expertId ≤ right.expert.expertId) }
  let result := sources.zipIdx.foldl db.addSource result
  { result with candidates := result.candidates.map (db.readCooccurrence result.candidates) }

end TransitionDatabase

end HyperMoE.Prediction
