import HyperMoE.Prediction.Streams

/-!
# The database represents the history

* `Call`, `history`                  a call of the recording interface, and the events of a sequence
                                     of them: a refused decision is none;
* `Represents`                       the counters of the database are the counts of the history;
* `Represents.observe`, `Represents.endStream`, `Represents.call`   one call;
* `run_represents`                   any sequence of calls.
-/

namespace HyperMoE.Prediction

open Lib Lib.Fallible Tensor Router

/-! ## the tables after one decision -/

namespace TransitionDatabase

section
variable {K : Type} [Field K] [LinearOrder K] (db : TransitionDatabase K)

theorem foldl_countExpert (l : List ExpertSelection) : l.foldl countExpert db =
    { db with
      frequencies := Table.tally l db.frequencies
      decayedFrequency :=
        Table.touchAll db.decayFactor db.observations l db.decayedFrequency } := by
  induction l generalizing db with
  | nil => rfl
  | cons a l ih =>
    show l.foldl countExpert (countExpert db a) = _
    rw [ih]
    rfl

theorem foldl_countTransition (l : List ExpertTransition) : l.foldl countTransition db =
    { db with
      transitions := Table.tally l db.transitions
      decayedTransitions :=
        Table.touchAll db.decayFactor db.observations l db.decayedTransitions } := by
  induction l generalizing db with
  | nil => rfl
  | cons a l ih =>
    show l.foldl countTransition (countTransition db a) = _
    rw [ih]
    rfl

theorem foldl_countPair (l : List ExpertCooccurrence) :
    l.foldl countPair db = { db with cooccurrence := Table.tally l db.cooccurrence } := by
  induction l generalizing db with
  | nil => rfl
  | cons a l ih =>
    show l.foldl countPair (countPair db a) = _
    rw [ih]
    rfl

/-- a stream without a selection joins to nothing -/
theorem observe_eq (streamId : StreamId) (current : List ExpertSelection) :
    observe streamId current db =
      { db with
        observations := db.observations + 1
        frequencies := Table.tally current db.frequencies
        decayedFrequency :=
          Table.touchAll db.decayFactor db.observations current db.decayedFrequency
        transitions := Table.tally
          (transitionsBetween (db.previousSelections streamId) current) db.transitions
        decayedTransitions := Table.touchAll db.decayFactor db.observations
          (transitionsBetween (db.previousSelections streamId) current) db.decayedTransitions
        cooccurrence := Table.tally (pairsOf current) db.cooccurrence
        previousByStream := db.previousByStream.insert streamId current
        recent := popFront db.recentWindow (db.recent ++ [current]) } := by
  unfold observe previousSelections
  cases db.previousByStream.lookup streamId with
  | none =>
    simp only [foldl_countExpert, foldl_countPair]
    rfl
  | some previous => simp only [foldl_countExpert, foldl_countTransition, foldl_countPair,
      Option.getD_some]

end

end TransitionDatabase

/-! ## the window -/

/-- the last `w` of a list -/
def latest {α : Type} (w : Nat) (l : List α) : List α := l.drop (l.length - w)

theorem popFront_eq (w : Nat) (l : List (List ExpertSelection)) : popFront w l = latest w l := by
  unfold latest
  induction l with
  | nil => rw [List.drop_nil, popFront]
  | cons oldest rest ih =>
    unfold popFront
    by_cases h : (oldest :: rest).length > w
    · have hage : (oldest :: rest).length - w = rest.length - w + 1 := by
        rw [List.length_cons] at h ⊢
        omega
      rw [if_pos h, ih, hage, List.drop_succ_cons]
    · rw [if_neg h, Nat.sub_eq_zero_of_le (Nat.le_of_not_lt h)]
      rfl

/-- a window keeps up with the list -/
theorem latest_append {α : Type} (w : Nat) (l : List α) (a : α) :
    latest w (latest w l ++ [a]) = latest w (l ++ [a]) := by
  unfold latest
  have hle : l.length - w ≤ l.length := Nat.sub_le _ _
  have hlen : (l.drop (l.length - w) ++ [a]).length - w + (l.length - w) =
      (l ++ [a]).length - w := by
    simp only [List.length_append, List.length_drop, List.length_singleton]
    omega
  rw [← List.drop_append_of_le_length hle, List.drop_drop, Nat.add_comm, ← hlen,
    List.drop_append_of_le_length hle]

/-! ## the counters are the counts -/

section
variable {K : Type} [Field K] [LinearOrder K]

structure Represents (events : List Event) (db : TransitionDatabase K) : Prop where
  observations : db.observations = (decisions events).length
  frequency : ∀ x, db.frequency x = overStreams (uses x) events
  transitionCount : ∀ x y, db.transitionCount x y = overStreams (joins x y) events
  pairs : ∀ x y, x ≠ y →
    (db.cooccurrence.lookup (orderedPair x y)).getD 0 = overStreams (meets x y) events
  previous : ∀ stream, db.previousSelections stream = lastOf (streamOf stream events)
  recent : db.recent = latest db.recentWindow ((decisions events).map Prod.snd)
  seen : ∀ x, (db.frequencies.lookup x).isSome ↔ ∃ d ∈ decisions events, x ∈ d.2
  fades : Table.Fades db.decayFactor db.decayedFrequency ((decisions events).map Prod.snd)
  fadesBetween : Table.Fades db.decayFactor db.decayedTransitions
    ((decisions events).map fun d => transitionsBetween d.1 d.2)

variable {events : List Event} {db : TransitionDatabase K}

theorem represents_nil {recentWindow : Nat} {d : K} (h : recentWindow ≠ 0) (hd : 0 < d)
    (hd' : d ≤ 1) : Represents []
      { recentWindow := recentWindow, decayFactor := d, recentWindow_pos := h,
        decayFactor_pos := hd, decayFactor_le_one := hd' } where
  observations := rfl
  frequency _ := rfl
  transitionCount _ _ := rfl
  pairs _ _ _ := rfl
  previous _ := rfl
  recent := List.drop_nil.symm
  seen x := by simp [decisions, decisionsAfter]
  fades := Table.fades_empty
  fadesBetween := Table.fades_empty

theorem Represents.observe (h : Represents events db) (stream : StreamId)
    (current : List ExpertSelection) :
    Represents (events ++ [⟨stream, some current⟩]) (db.observe stream current) := by
  have hdecisions : decisions (events ++ [⟨stream, some current⟩]) =
      decisions events ++ [(lastOf (streamOf stream events), current)] := decisions_append _ _
  have hprevious := h.previous stream
  rw [TransitionDatabase.observe_eq]
  refine ⟨?_, fun x => ?_, fun x y => ?_, fun x y hne => ?_, fun s => ?_, ?_, fun x => ?_, ?_, ?_⟩
  · show db.observations + 1 = _
    rw [hdecisions, List.length_append, h.observations, List.length_singleton]
  · show ((Table.tally current db.frequencies).lookup x).getD 0 = _
    rw [Table.getD_tally, overStreams_append events _ rfl (uses_append x), ← h.frequency x]
    rfl
  · show ((Table.tally _ db.transitions).lookup _).getD 0 = _
    rw [Table.getD_tally, count_transitionsBetween, hprevious,
      overStreams_append events _ rfl (joins_append x y), ← h.transitionCount x y]
    rfl
  · show ((Table.tally _ db.cooccurrence).lookup _).getD 0 = _
    rw [Table.getD_tally, count_pairsOf current hne, h.pairs x y hne,
      overStreams_append events _ rfl (meets_append x y)]
    rfl
  · show ((db.previousByStream.insert stream current).lookup s).getD [] = _
    rw [Table.lookup_insert', streamOf_append]
    by_cases hs : s = stream
    · subst hs
      rw [if_pos rfl, if_pos rfl, lastOf_append]
      rfl
    · rw [if_neg hs, if_neg (Ne.symm hs), List.append_nil]
      exact h.previous s
  · show popFront db.recentWindow (db.recent ++ [current]) = _
    rw [popFront_eq, h.recent, latest_append, hdecisions, List.map_append]
    rfl
  · show ((Table.tally current db.frequencies).lookup x).isSome ↔ _
    rw [Table.isSome_tally, h.seen x, hdecisions]
    simp [List.mem_append, or_and_right, exists_or]
  · rw [hdecisions, List.map_append]
    have := h.fades.append current
    rwa [List.length_map, ← h.observations] at this
  · rw [hdecisions, List.map_append]
    have := h.fadesBetween.append (transitionsBetween (lastOf (streamOf stream events)) current)
    rw [List.length_map, ← h.observations] at this
    show Table.Fades _ (Table.touchAll _ _ (transitionsBetween (db.previousSelections stream) _) _) _
    rwa [hprevious]

/-- the end of a stream counts nothing -/
theorem Represents.endStream (h : Represents events db) (stream : StreamId) :
    Represents (events ++ [⟨stream, none⟩])
      { db with previousByStream := db.previousByStream.erase stream } := by
  have hdecisions : decisions (events ++ [⟨stream, none⟩]) = decisions events :=
    (decisions_append _ _).trans (List.append_nil _)
  refine ⟨?_, fun x => ?_, fun x y => ?_, fun x y hne => ?_, fun s => ?_, ?_, fun x => ?_, ?_, ?_⟩
  · rw [hdecisions]
    exact h.observations
  · rw [overStreams_append events _ rfl (uses_append x)]
    exact h.frequency x
  · rw [overStreams_append events _ rfl (joins_append x y)]
    exact h.transitionCount x y
  · rw [overStreams_append events _ rfl (meets_append x y)]
    exact (h.pairs x y hne).trans (by simp [chosen])
  · show ((db.previousByStream.erase stream).lookup s).getD [] = _
    rw [Table.lookup_erase', streamOf_append]
    by_cases hs : s = stream
    · subst hs
      rw [if_pos rfl, if_pos rfl, lastOf_append]
      rfl
    · rw [if_neg hs, if_neg (Ne.symm hs), List.append_nil]
      exact h.previous s
  · rw [hdecisions]
    exact h.recent
  · rw [hdecisions]
    exact h.seen x
  · rw [hdecisions]
    exact h.fades
  · rw [hdecisions]
    exact h.fadesBetween

end

/-! ## sequences of calls -/

inductive Call (K : Type) where
  | record (decision : RouterDecision K) (streamId : StreamId)
  | endStream (streamId : StreamId)

section
variable {K : Type} [Field K] [LinearOrder K]

def Call.perform : Call K → Fallible StdError (TransitionDatabase K) Unit
  | .record decision streamId => TransitionDatabase.record decision streamId
  | .endStream streamId => TransitionDatabase.endStream streamId

def Call.event : Call K → Option Event
  | .record decision streamId =>
    if decision.valid then some ⟨streamId, some (selections decision)⟩ else none
  | .endStream streamId => some ⟨streamId, none⟩

def history (calls : List (Call K)) : List Event := calls.filterMap Call.event

/-- the database after the calls; a call that throws leaves it as it was -/
def run (db : TransitionDatabase K) (calls : List (Call K)) : TransitionDatabase K :=
  calls.foldl (fun db call => (call.perform.exec db).2) db

variable {events : List Event} {db : TransitionDatabase K}

theorem Represents.call (h : Represents events db) (call : Call K) :
    Represents (events ++ call.event.toList) (call.perform.exec db).2 := by
  cases call with
  | record decision streamId =>
    show Represents (events ++ (if decision.valid then some _ else none).toList)
      ((TransitionDatabase.record decision streamId).exec db).2
    unfold TransitionDatabase.record
    rw [exec_throwIf_bind]
    by_cases hvalid : decision.valid
    · rw [if_neg (not_not.mpr hvalid), if_pos hvalid]
      exact h.observe streamId (selections decision)
    · rw [if_pos hvalid, if_neg hvalid, Option.toList_none, List.append_nil]
      exact h
  | endStream streamId => exact h.endStream streamId

theorem run_represents {calls : List (Call K)} (h : Represents [] db) :
    Represents (history calls) (run db calls) := by
  induction calls using List.reverseRecOn with
  | nil => exact h
  | append_singleton calls call ih =>
    have hhistory : history (calls ++ [call]) = history calls ++ call.event.toList := by
      unfold history
      rw [List.filterMap_append, List.filterMap_cons]
      cases call.event <;> rfl
    rw [hhistory]
    unfold run
    rw [List.foldl_append]
    exact ih.call call

end

end HyperMoE.Prediction
