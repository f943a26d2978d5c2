import HyperMoE.Prediction.Recording

/-!
# predictionStatistics: the counts of one layer

* `Summed`                  the counters of the layer are the sums over the candidates;
* `foldl_addCandidate`, `windowed`, `foldl_addSource`   the loops, each with what it leaves in a
                            candidate;
* `StatisticsRead`          the result in terms of the history;
* `statistics_read`         what `predictionStatistics` returns on a database that represents it;
* `run_counts`              the statistics after any calls.
-/

namespace HyperMoE.Prediction

open Lib Lib.Fallible Tensor Router

/-! ## rows written place by place -/

/-- a loop that writes each place of a row once -/
theorem foldl_modify_zipIdx {α β : Type} (f : α → β → β) (z : β) (l : List α) (before : List β) :
    (l.zipIdx before.length).foldl (fun row s => row.modify s.2 (f s.1))
      (before ++ List.replicate l.length z) = before ++ l.map fun s => f s z := by
  induction l generalizing before with
  | nil => rfl
  | cons a l ih =>
    have hwrite : (before ++ List.replicate (a :: l).length z).modify before.length (f a) =
        (before ++ [f a z]) ++ List.replicate l.length z := by
      rw [List.length_cons, List.replicate_succ, List.modify_eq_take_cons_drop (by simp)]
      simp
    have hnext := ih (before ++ [f a z])
    rw [List.length_append, List.length_singleton] at hnext
    rw [List.zipIdx_cons, List.foldl_cons, hwrite, hnext, List.map_cons, List.append_assoc]
    rfl

theorem set_eq_modify {β : Type} (row : List β) (i : Nat) (v : β) :
    row.set i v = row.modify i fun _ => v := by
  induction row generalizing i with
  | nil => rw [List.set_nil, List.modify_nil]
  | cons a row ih =>
    cases i with
    | zero => rfl
    | succ i => rw [List.set_cons_succ, List.modify_succ_cons, ih]

/-! ## the loops -/

section
variable {K : Type} [Field K] [LinearOrder K]

namespace TransitionDatabase

structure Summed (r : PredictionStatistics K) : Prop where
  layer : r.layerFrequency = (r.candidates.map (·.frequency)).sum
  decayed : r.decayedLayerFrequency = (r.candidates.map (·.decayedFrequency)).sum
  window : r.windowLayerFrequency = (r.candidates.map (·.windowFrequency)).sum

variable (db : TransitionDatabase K) (targetLayer : LayerId) (sources : List ExpertSelection)

/-- the candidate of an entry of `frequency_`, before the other loops -/
def fresh (entry : Sigma fun _ : ExpertSelection => Nat) : PredictionCandidateStatistics K :=
  { expert := entry.1
    frequency := entry.2
    incomingBySource := List.replicate sources.length 0
    decayedFrequency := db.decayedAt db.decayedFrequency entry.1
    decayedIncomingBySource := List.replicate sources.length 0 }

theorem foldl_addCandidate (l : List (Sigma fun _ : ExpertSelection => Nat))
    (r : PredictionStatistics K) :
    (l.foldl (db.addCandidate targetLayer sources) r).candidates =
      r.candidates ++ (l.filter fun e => e.1.layerId = targetLayer).map (db.fresh sources) := by
  induction l generalizing r with
  | nil => exact (List.append_nil _).symm
  | cons e l ih =>
    rw [List.foldl_cons, ih]
    unfold addCandidate
    by_cases he : e.1.layerId = targetLayer
    · rw [if_neg (not_not.mpr he), List.filter_cons, if_pos (decide_eq_true he), List.map_cons]
      exact List.append_assoc _ _ _
    · rw [if_pos he, List.filter_cons, if_neg (by simpa using he)]

theorem outgoing_addCandidate (l : List (Sigma fun _ : ExpertSelection => Nat))
    (r : PredictionStatistics K) :
    (l.foldl (db.addCandidate targetLayer sources) r).outgoingBySource = r.outgoingBySource := by
  induction l generalizing r with
  | nil => rfl
  | cons e l ih =>
    rw [List.foldl_cons, ih]
    unfold addCandidate
    split <;> rfl

variable {r : PredictionStatistics K}

theorem Summed.addCandidate (h : Summed r) (entry : Sigma fun _ : ExpertSelection => Nat) :
    Summed (db.addCandidate targetLayer sources r entry) := by
  unfold TransitionDatabase.addCandidate
  split
  · exact h
  · constructor
    · simp [h.layer]
    · simp [h.decayed]
    · simp [h.window]

/-! the window -/

/-- one occurrence of each selection of the window -/
def windowed (window : List ExpertSelection) (c : PredictionCandidateStatistics K) :
    PredictionCandidateStatistics K :=
  { c with windowFrequency := c.windowFrequency + window.count c.expert }

omit [Field K] [LinearOrder K] in
theorem bumpWindow_eq (s : ExpertSelection) (l : List (PredictionCandidateStatistics K))
    (h : (l.map (·.expert)).Nodup) : bumpWindow s l = l.map (windowed [s]) := by
  induction l with
  | nil => rfl
  | cons c l ih =>
    obtain ⟨hnot, hl⟩ := List.nodup_cons.mp h
    rw [List.map_cons]
    unfold bumpWindow
    by_cases hs : c.expert = s
    · have hrest : l.map (windowed [s]) = l := by
        refine (List.map_congr_left fun c' hc' => ?_).trans (List.map_id l)
        have hne : s ≠ c'.expert := fun e => hnot (List.mem_map.mpr ⟨c', hc', (hs.trans e).symm⟩)
        unfold windowed
        rw [List.count_cons_of_ne hne]
        rfl
      rw [if_pos hs, hrest]
      unfold windowed
      rw [hs, List.count_cons_self]
      rfl
    · rw [if_neg hs, ih hl]
      unfold windowed
      rw [List.count_cons_of_ne (Ne.symm hs)]
      rfl

omit [Field K] [LinearOrder K] in
theorem windowed_append (w : List ExpertSelection) (s : ExpertSelection)
    (c : PredictionCandidateStatistics K) : windowed [s] (windowed w c) = windowed (w ++ [s]) c := by
  unfold windowed
  rw [List.count_append]
  exact congrArg (fun n => { c with windowFrequency := n }) (Nat.add_assoc _ _ _)

variable {targetLayer}

omit [Field K] [LinearOrder K] in
theorem foldl_countWindow (hnodup : (r.candidates.map (·.expert)).Nodup)
    (hlayer : ∀ c ∈ r.candidates, c.expert.layerId = targetLayer) (w : List ExpertSelection) :
    (w.foldl (countWindow targetLayer) r).candidates = r.candidates.map (windowed w) := by
  induction w using List.reverseRecOn with
  | nil => exact (List.map_id _).symm
  | append_singleton w s ih =>
    rw [List.foldl_append]
    show (countWindow targetLayer (w.foldl (countWindow targetLayer) r) s).candidates = _
    rw [countWindow]
    by_cases hs : s.layerId = targetLayer
    · have hexperts : ((r.candidates.map (windowed w)).map (·.expert)).Nodup := by
        rw [List.map_map]
        exact hnodup
      rw [if_neg (not_not.mpr hs)]
      show bumpWindow s (w.foldl (countWindow targetLayer) r).candidates = _
      rw [ih, bumpWindow_eq s _ hexperts, List.map_map]
      exact List.map_congr_left fun c _ => windowed_append w s c
    · rw [if_pos hs, ih]
      refine List.map_congr_left fun c hc => ?_
      have hne : s ≠ c.expert := fun e => hs (e ▸ hlayer c hc)
      rw [← windowed_append]
      unfold windowed
      rw [List.count_cons_of_ne hne]
      rfl

omit [Field K] [LinearOrder K] in
theorem sum_count_singleton (s : ExpertSelection) (l : List ExpertSelection) :
    (l.map fun x => [s].count x).sum = l.count s := by
  induction l with
  | nil => rfl
  | cons a l ih =>
    rw [List.map_cons, List.sum_cons, ih, List.count_cons, Nat.add_comm]
    by_cases h : a = s
    · simp [h]
    · simp [h, Ne.symm h]

omit [LinearOrder K] in
theorem Summed.countWindow (h : Summed r) (hnodup : (r.candidates.map (·.expert)).Nodup)
    {s : ExpertSelection}
    (hmem : s.layerId = targetLayer → s ∈ r.candidates.map (·.expert)) :
    Summed (TransitionDatabase.countWindow targetLayer r s) := by
  unfold TransitionDatabase.countWindow
  by_cases hs : s.layerId = targetLayer
  · rw [if_neg (not_not.mpr hs), bumpWindow_eq s _ hnodup]
    refine ⟨?_, ?_, ?_⟩
    · rw [h.layer, List.map_map]
      rfl
    · rw [h.decayed, List.map_map]
      rfl
    · have hone : (r.candidates.map fun c => [s].count c.expert).sum = 1 := by
        have hcount := sum_count_singleton s (r.candidates.map (·.expert))
        rw [List.map_map, List.count_eq_one_of_mem hnodup (hmem hs)] at hcount
        exact hcount
      show r.windowLayerFrequency + 1 = _
      rw [h.window, List.map_map, ← hone, ← List.sum_map_add]
      rfl
  · rw [if_pos hs]
    exact h

omit [LinearOrder K] in
theorem Summed.foldl_countWindow (h : Summed r) (hnodup : (r.candidates.map (·.expert)).Nodup)
    (hlayer : ∀ c ∈ r.candidates, c.expert.layerId = targetLayer) {w : List ExpertSelection}
    (hmem : ∀ s ∈ w, s.layerId = targetLayer → s ∈ r.candidates.map (·.expert)) :
    Summed (w.foldl (TransitionDatabase.countWindow targetLayer) r) := by
  induction w using List.reverseRecOn with
  | nil => exact h
  | append_singleton w s ih =>
    have hexperts : (w.foldl (TransitionDatabase.countWindow targetLayer) r).candidates.map
        (·.expert) = r.candidates.map (·.expert) := by
      rw [TransitionDatabase.foldl_countWindow hnodup hlayer, List.map_map]
      rfl
    rw [List.foldl_append]
    refine (ih fun t ht => hmem t (List.mem_append_left _ ht)).countWindow (hexperts ▸ hnodup) ?_
    rw [hexperts]
    exact hmem s (List.mem_append_right _ List.mem_cons_self)

omit [Field K] [LinearOrder K] in
theorem outgoing_countWindow (w : List ExpertSelection) (r : PredictionStatistics K) :
    (w.foldl (countWindow targetLayer) r).outgoingBySource = r.outgoingBySource := by
  induction w generalizing r with
  | nil => rfl
  | cons s w ih =>
    rw [List.foldl_cons, ih]
    unfold countWindow
    split <;> rfl

omit [LinearOrder K] in
/-- the candidates may be reordered, and changed in what is not summed -/
theorem Summed.reorder (h : Summed r) {l : List (PredictionCandidateStatistics K)}
    (hperm : l.Perm r.candidates)
    {f : PredictionCandidateStatistics K → PredictionCandidateStatistics K}
    (hfrequency : ∀ c, (f c).frequency = c.frequency)
    (hdecayed : ∀ c, (f c).decayedFrequency = c.decayedFrequency)
    (hwindow : ∀ c, (f c).windowFrequency = c.windowFrequency) (outgoing : List Nat) :
    Summed { r with candidates := l.map f, outgoingBySource := outgoing } := by
  refine ⟨?_, ?_, ?_⟩
  · rw [h.layer, List.map_map]
    exact (hperm.map _).sum_eq.symm.trans (congrArg List.sum (List.map_congr_left fun c _ =>
      (hfrequency c).symm))
  · rw [h.decayed, List.map_map]
    exact (hperm.map _).sum_eq.symm.trans (congrArg List.sum (List.map_congr_left fun c _ =>
      (hdecayed c).symm))
  · rw [h.window, List.map_map]
    exact (hperm.map _).sum_eq.symm.trans (congrArg List.sum (List.map_congr_left fun c _ =>
      (hwindow c).symm))

/-! the sources -/

/-- `transitions_.find({source, expert})`, 0 where there is none -/
def incoming (c : PredictionCandidateStatistics K) (source : ExpertSelection) : Nat :=
  db.transitionCount source c.expert

/-- a candidate with a value for each of the sources -/
def sourced (c : PredictionCandidateStatistics K) : PredictionCandidateStatistics K :=
  { c with
    incomingBySource := sources.map (db.incoming c)
    decayedIncomingBySource := sources.map fun s => db.decayedAt db.decayedTransitions ⟨s, c.expert⟩ }

theorem readIncoming_eq (s : ExpertSelection) (i : Nat) (c : PredictionCandidateStatistics K) :
    db.readIncoming s i c =
      { c with
        incomingBySource := c.incomingBySource.modify i fun z =>
          (db.transitions.lookup ⟨s, c.expert⟩).getD z
        decayedIncomingBySource := c.decayedIncomingBySource.modify i fun z =>
          ((db.decayedTransitions.lookup ⟨s, c.expert⟩).map db.decayedValue).getD z } := by
  unfold readIncoming
  congr 1
  · cases db.transitions.lookup ⟨s, c.expert⟩ with
    | none => exact (List.modify_id i _).symm
    | some count => exact set_eq_modify _ i count
  · cases db.decayedTransitions.lookup ⟨s, c.expert⟩ with
    | none => exact (List.modify_id i _).symm
    | some counter => exact set_eq_modify _ i (db.decayedValue counter)

theorem foldl_readIncoming (l : List (ExpertSelection × Nat))
    (c : PredictionCandidateStatistics K) :
    l.foldl (fun c s => db.readIncoming s.1 s.2 c) c =
      { c with
        incomingBySource := l.foldl (fun row s => row.modify s.2 fun z =>
          (db.transitions.lookup ⟨s.1, c.expert⟩).getD z) c.incomingBySource
        decayedIncomingBySource := l.foldl (fun row s => row.modify s.2 fun z =>
          ((db.decayedTransitions.lookup ⟨s.1, c.expert⟩).map db.decayedValue).getD z)
          c.decayedIncomingBySource } := by
  induction l generalizing c with
  | nil => rfl
  | cons s l ih =>
    rw [List.foldl_cons, ih, readIncoming_eq]
    rfl

/-- the rows of a candidate start as zeros -/
theorem foldl_readIncoming_sources (c : PredictionCandidateStatistics K)
    (h : c.incomingBySource = List.replicate sources.length 0)
    (h' : c.decayedIncomingBySource = List.replicate sources.length 0) :
    sources.zipIdx.foldl (fun c s => db.readIncoming s.1 s.2 c) c = db.sourced sources c := by
  rw [foldl_readIncoming, h, h']
  unfold sourced
  congr 1
  · exact foldl_modify_zipIdx
      (fun s z => (db.transitions.lookup ⟨s, c.expert⟩).getD z) 0 sources []
  · refine (foldl_modify_zipIdx (fun s z =>
      ((db.decayedTransitions.lookup ⟨s, c.expert⟩).map db.decayedValue).getD z) 0 sources []).trans ?_
    refine List.map_congr_left fun s _ => ?_
    unfold decayedAt
    cases db.decayedTransitions.lookup ⟨s, c.expert⟩ <;> rfl

theorem foldl_addOutgoing (s : ExpertSelection) (i : Nat)
    (l : List (PredictionCandidateStatistics K)) (row : List Nat) :
    l.foldl (fun outgoing candidate =>
      match db.transitions.lookup ⟨s, candidate.expert⟩ with
      | some count => outgoing.modify i (· + count)
      | none => outgoing) row = row.modify i (· + (l.map fun c => db.incoming c s).sum) := by
  induction l generalizing row with
  | nil => exact (List.modify_id i _).symm
  | cons c l ih =>
    rw [List.foldl_cons, ih, List.map_cons, List.sum_cons]
    unfold incoming transitionCount
    cases db.transitions.lookup ⟨s, c.expert⟩ with
    | none =>
      rw [Option.getD_none, Nat.zero_add]
    | some count =>
      rw [Option.getD_some, List.modify_modify_eq]
      exact congrArg (row.modify i) (funext fun z => Nat.add_assoc z count _)

theorem addSource_eq (r : PredictionStatistics K) (s : ExpertSelection × Nat) :
    db.addSource r s =
      { r with
        candidates := r.candidates.map (db.readIncoming s.1 s.2)
        outgoingBySource := r.outgoingBySource.modify s.2
          (· + (r.candidates.map fun c => db.incoming c s.1).sum) } :=
  congrArg (fun row => ({ r with
    candidates := r.candidates.map (db.readIncoming s.1 s.2)
    outgoingBySource := row } : PredictionStatistics K))
    (db.foldl_addOutgoing s.1 s.2 r.candidates r.outgoingBySource)

theorem foldl_addSource (l : List (ExpertSelection × Nat)) (r : PredictionStatistics K) :
    l.foldl db.addSource r =
      { r with
        candidates := r.candidates.map fun c => l.foldl (fun c s => db.readIncoming s.1 s.2 c) c
        outgoingBySource := l.foldl (fun row s =>
          row.modify s.2 (· + (r.candidates.map fun c => db.incoming c s.1).sum))
          r.outgoingBySource } := by
  induction l generalizing r with
  | nil =>
    rw [List.foldl_nil, List.foldl_nil]
    simp
  | cons s l ih =>
    have hincoming : ∀ t : ExpertSelection,
        (r.candidates.map (db.readIncoming s.1 s.2)).map (fun c => db.incoming c t) =
          r.candidates.map fun c => db.incoming c t := by
      intro t
      rw [List.map_map]
      rfl
    rw [List.foldl_cons, ih, addSource_eq]
    simp only [hincoming, List.map_map]
    rfl

theorem decayedAt_eq {κ : Type} [DecidableEq κ] {counters : Table κ (DecayedCounter K)}
    {keys : List (List κ)} (h : Table.Fades db.decayFactor counters keys)
    (hnow : db.observations = keys.length) (k : κ) :
    db.decayedAt counters k = faded db.decayFactor (keys.map (List.count k)) := by
  rw [← (h k).value, ← hnow]
  unfold decayedAt Table.fading
  cases counters.lookup k with
  | none => exact (zero_mul _).symm
  | some counter => rfl

/-! ## the result -/

variable (targetLayer)

def entriesOf : List (Sigma fun _ : ExpertSelection => Nat) :=
  db.frequencies.entries.filter fun e => e.1.layerId = targetLayer

theorem nodup_entriesOf : ((db.entriesOf targetLayer).map Sigma.fst).Nodup :=
  List.Nodup.sublist (List.filter_sublist.map _) db.frequencies.nodupKeys

/-- a candidate before the sort -/
def counted (entry : Sigma fun _ : ExpertSelection => Nat) : PredictionCandidateStatistics K :=
  windowed db.recent.flatten (db.fresh sources entry)

/-- `l` are the candidates after the sort -/
structure Assembled (l : List (PredictionCandidateStatistics K)) (r : PredictionStatistics K) :
    Prop where
  perm : l.Perm ((db.entriesOf targetLayer).map (db.counted sources))
  sorted : l.Pairwise fun left right => left.expert.expertId ≤ right.expert.expertId
  candidates : r.candidates =
    l.map fun c => db.readCooccurrence (l.map (db.sourced sources)) (db.sourced sources c)
  outgoing : r.outgoingBySource = sources.map fun s => (l.map fun c => db.incoming c s).sum
  summed : Summed r

theorem assembled_predictionStatistics (hwindow : ∀ s ∈ db.recent.flatten,
      s.layerId = targetLayer → s ∈ (db.entriesOf targetLayer).map Sigma.fst) :
    ∃ l, Assembled db targetLayer sources l (db.predictionStatistics targetLayer sources) := by
  let start : PredictionStatistics K :=
    { outgoingBySource := List.replicate sources.length 0, decayedLayerFrequency := 0 }
  let added := db.frequencies.entries.foldl (db.addCandidate targetLayer sources) start
  let inWindow := db.recent.flatten.foldl (countWindow targetLayer) added
  let l := inWindow.candidates.mergeSort fun left right =>
    decide (left.expert.expertId ≤ right.expert.expertId)
  have hadded : added.candidates = (db.entriesOf targetLayer).map (db.fresh sources) :=
    db.foldl_addCandidate targetLayer sources _ start
  have hexperts : added.candidates.map (·.expert) = (db.entriesOf targetLayer).map Sigma.fst := by
    rw [hadded, List.map_map]
    rfl
  have hlayer : ∀ c ∈ added.candidates, c.expert.layerId = targetLayer := by
    rw [hadded]
    intro c hc
    obtain ⟨e, he, rfl⟩ := List.mem_map.mp hc
    exact of_decide_eq_true (List.mem_filter.mp he).2
  have hnodup : (added.candidates.map (·.expert)).Nodup := hexperts ▸ db.nodup_entriesOf targetLayer
  have hstart : Summed start := ⟨rfl, rfl, rfl⟩
  have hsummed : Summed inWindow := by
    refine Summed.foldl_countWindow ?_ hnodup hlayer (hexperts ▸ hwindow)
    exact List.foldlRecOn _ _ hstart fun r hr e _ => hr.addCandidate db targetLayer sources e
  have hinWindow : inWindow.candidates =
      (db.entriesOf targetLayer).map (db.counted sources) := by
    show (db.recent.flatten.foldl (countWindow targetLayer) added).candidates = _
    rw [foldl_countWindow hnodup hlayer, hadded, List.map_map]
    rfl
  have hperm : l.Perm inWindow.candidates := List.mergeSort_perm _ _
  have hrows : ∀ c ∈ l, sources.zipIdx.foldl (fun c s => db.readIncoming s.1 s.2 c) c =
      db.sourced sources c := by
    intro c hc
    have hc' := hperm.mem_iff.mp hc
    rw [hinWindow] at hc'
    obtain ⟨e, -, rfl⟩ := List.mem_map.mp hc'
    exact db.foldl_readIncoming_sources sources _ rfl rfl
  have hzeros : inWindow.outgoingBySource = List.replicate sources.length 0 :=
    (outgoing_countWindow _ added).trans (db.outgoing_addCandidate targetLayer sources _ start)
  have houtgoing : sources.zipIdx.foldl (fun row s => row.modify s.2
      (· + (l.map fun c => db.incoming c s.1).sum)) inWindow.outgoingBySource =
        sources.map fun s => (l.map fun c => db.incoming c s).sum := by
    rw [hzeros]
    exact (foldl_modify_zipIdx (fun s z => z + (l.map fun c => db.incoming c s).sum) 0 sources
      []).trans (List.map_congr_left fun s _ => Nat.zero_add _)
  have hfold : sources.zipIdx.foldl db.addSource { inWindow with candidates := l } =
      { inWindow with
        candidates := l.map (db.sourced sources)
        outgoingBySource := sources.map fun s => (l.map fun c => db.incoming c s).sum } := by
    rw [foldl_addSource, ← houtgoing, ← List.map_congr_left hrows]
  have hresult : db.predictionStatistics targetLayer sources =
      { inWindow with
        candidates := (l.map (db.sourced sources)).map
          (db.readCooccurrence (l.map (db.sourced sources)))
        outgoingBySource := sources.map fun s => (l.map fun c => db.incoming c s).sum } := by
    show ({ sources.zipIdx.foldl db.addSource { inWindow with candidates := l } with
      candidates := (sources.zipIdx.foldl db.addSource { inWindow with candidates := l }).candidates.map
        (db.readCooccurrence
          (sources.zipIdx.foldl db.addSource { inWindow with candidates := l }).candidates) } :
        PredictionStatistics K) = _
    rw [hfold]
  rw [hresult, List.map_map]
  refine ⟨l, hinWindow ▸ hperm, ?_, rfl, rfl, hsummed.reorder hperm ?_ ?_ ?_ _⟩
  · refine List.Pairwise.imp (fun h => of_decide_eq_true h)
      (List.pairwise_mergeSort ?_ ?_ inWindow.candidates)
    · intro a b c hab hbc
      exact decide_eq_true (Nat.le_trans (of_decide_eq_true hab) (of_decide_eq_true hbc))
    · intro a b
      simpa using Nat.le_total a.expert.expertId b.expert.expertId
  all_goals exact fun _ => rfl

end TransitionDatabase

/-! ## in terms of the history -/

/-- what a candidate says about its expert -/
structure CandidateRead (events : List Event) (recentWindow : Nat) (d : K)
    (sources : List ExpertSelection) (c : PredictionCandidateStatistics K) : Prop where
  frequency : c.frequency = overStreams (uses c.expert) events
  decayedFrequency : c.decayedFrequency =
    faded d ((decisions events).map fun t => t.2.count c.expert)
  windowFrequency : c.windowFrequency =
    ((latest recentWindow (decisions events)).map fun t => t.2.count c.expert).sum
  incoming : c.incomingBySource = sources.map fun s => overStreams (joins s c.expert) events
  decayedIncoming : c.decayedIncomingBySource = sources.map fun s =>
    faded d ((decisions events).map fun t => t.1.count s * t.2.count c.expert)

structure StatisticsRead (events : List Event) (recentWindow : Nat) (d : K)
    (targetLayer : LayerId) (sources : List ExpertSelection) (r : PredictionStatistics K) :
    Prop where
  candidates : ∀ c ∈ r.candidates, CandidateRead events recentWindow d sources c
  experts : ∀ x, x ∈ r.candidates.map (·.expert) ↔
    x.layerId = targetLayer ∧ ∃ t ∈ decisions events, x ∈ t.2
  sorted : r.candidates.Pairwise fun left right => left.expert.expertId < right.expert.expertId
  outgoing : r.outgoingBySource = (List.range sources.length).map fun i =>
    (r.candidates.map fun c => c.incomingBySource.getD i 0).sum
  summed : TransitionDatabase.Summed r

namespace TransitionDatabase

variable {events : List Event} {db : TransitionDatabase K} {targetLayer : LayerId}
  {sources : List ExpertSelection}

theorem mem_experts_entriesOf (h : Represents events db) (x : ExpertSelection) :
    x ∈ (db.entriesOf targetLayer).map Sigma.fst ↔
      x.layerId = targetLayer ∧ ∃ t ∈ decisions events, x ∈ t.2 := by
  rw [← h.seen x, List.mem_map, Option.isSome_iff_exists]
  constructor
  · rintro ⟨e, he, rfl⟩
    obtain ⟨hm, hlayer⟩ := List.mem_filter.mp he
    exact ⟨of_decide_eq_true hlayer, e.2, Table.mem_entries_iff.mp hm⟩
  · rintro ⟨hlayer, n, hn⟩
    exact ⟨⟨x, n⟩, List.mem_filter.mpr ⟨Table.mem_entries_iff.mpr hn, decide_eq_true hlayer⟩, rfl⟩

theorem latest_map {α β : Type} (f : α → β) (w : Nat) (l : List α) :
    latest w (l.map f) = (latest w l).map f := by
  unfold latest
  rw [List.map_drop, List.length_map]

/-- every selection of the window was counted -/
theorem window_counted (h : Represents events db) : ∀ s ∈ db.recent.flatten,
    s.layerId = targetLayer → s ∈ (db.entriesOf targetLayer).map Sigma.fst := by
  intro s hs hlayer
  obtain ⟨current, hcurrent, hmem⟩ := List.mem_flatten.mp hs
  rw [h.recent] at hcurrent
  obtain ⟨t, ht, rfl⟩ := List.mem_map.mp (List.mem_of_mem_drop hcurrent)
  exact (mem_experts_entriesOf h s).mpr ⟨hlayer, t, ht, hmem⟩

theorem candidateRead (h : Represents events db) {e : Sigma fun _ : ExpertSelection => Nat}
    (he : e ∈ db.frequencies.entries) (peers : List (PredictionCandidateStatistics K)) :
    CandidateRead events db.recentWindow db.decayFactor sources
      (db.readCooccurrence peers (db.sourced sources (db.counted sources e))) := by
  have hlookup : db.frequencies.lookup e.1 = some e.2 := Table.mem_entries_iff.mp he
  have hnow : db.observations = ((decisions events).map Prod.snd).length := by
    rw [List.length_map]
    exact h.observations
  refine ⟨?_, ?_, ?_, ?_, ?_⟩
  · show e.2 = overStreams (uses e.1) events
    rw [← h.frequency e.1]
    unfold TransitionDatabase.frequency
    rw [hlookup]
    rfl
  · show db.decayedAt db.decayedFrequency e.1 = _
    rw [db.decayedAt_eq h.fades hnow, List.map_map]
    rfl
  · show 0 + db.recent.flatten.count e.1 = _
    rw [Nat.zero_add, List.count_flatten, h.recent, latest_map, List.map_map]
    rfl
  · exact List.map_congr_left fun s _ => h.transitionCount s e.1
  · refine List.map_congr_left fun s _ => ?_
    rw [db.decayedAt_eq h.fadesBetween (by rw [List.length_map]; exact h.observations),
      List.map_map]
    exact congrArg _ (List.map_congr_left fun t _ => count_transitionsBetween t.1 t.2 s e.1)

theorem statistics_read (h : Represents events db) :
    StatisticsRead events db.recentWindow db.decayFactor targetLayer sources
      (db.predictionStatistics targetLayer sources) := by
  obtain ⟨l, hl⟩ := db.assembled_predictionStatistics targetLayer sources (window_counted h)
  have hexperts : (db.predictionStatistics targetLayer sources).candidates.map (·.expert) =
      l.map (·.expert) := by
    rw [hl.candidates, List.map_map]
    rfl
  have hperm : (l.map (·.expert)).Perm ((db.entriesOf targetLayer).map Sigma.fst) := by
    have := hl.perm.map (·.expert)
    rwa [List.map_map] at this
  have hmem : ∀ x, x ∈ l.map (·.expert) ↔
      x.layerId = targetLayer ∧ ∃ t ∈ decisions events, x ∈ t.2 := fun x =>
    hperm.mem_iff.trans (mem_experts_entriesOf h x)
  refine ⟨fun c hc => ?_, fun x => hexperts ▸ hmem x, ?_, ?_, hl.summed⟩
  · rw [hl.candidates] at hc
    obtain ⟨c, hcl, rfl⟩ := List.mem_map.mp hc
    obtain ⟨e, he, rfl⟩ := List.mem_map.mp (hl.perm.mem_iff.mp hcl)
    exact candidateRead h (List.mem_filter.mp he).1 _
  · -- experts of one layer with the same id are the same
    have hnodup : l.Pairwise fun left right => left.expert ≠ right.expert :=
      List.pairwise_map.mp (hperm.nodup_iff.mpr (db.nodup_entriesOf targetLayer))
    have hlayer : ∀ c ∈ l, c.expert.layerId = targetLayer := fun c hc =>
      ((hmem c.expert).mp (List.mem_map_of_mem hc)).1
    rw [hl.candidates, List.pairwise_map]
    refine (hl.sorted.and hnodup).imp_of_mem fun {a b} ha hb hab => ?_
    refine Nat.lt_of_le_of_ne hab.1 fun hid => hab.2 ?_
    exact congrArg₂ ExpertSelection.mk ((hlayer a ha).trans (hlayer b hb).symm) hid
  · rw [hl.outgoing, hl.candidates]
    refine List.ext_getElem (by simp) fun i hi hi' => ?_
    have hlt : i < sources.length := by simpa using hi
    rw [List.getElem_map, List.getElem_map, List.getElem_range, List.map_map]
    refine congrArg List.sum (List.map_congr_left fun c _ => ?_)
    show _ = (sources.map (db.incoming c)).getD i 0
    rw [List.getD_eq_getElem _ _ (by simpa using hlt), List.getElem_map]

end TransitionDatabase

/-! ## after any calls -/

variable {recentWindow : Nat} {d : K} {db : TransitionDatabase K}

theorem new_eq_ok (h : TransitionDatabase.new recentWindow (some d) = .ok db) :
    Represents [] db ∧ db.recentWindow = recentWindow ∧ db.decayFactor = d := by
  unfold TransitionDatabase.new at h
  dsimp only at h
  split at h
  · next hconfig =>
    obtain rfl := Except.ok.inj h
    exact ⟨represents_nil hconfig.1 hconfig.2.1 hconfig.2.2, rfl, rfl⟩
  · cases h

theorem config_run (db : TransitionDatabase K) (calls : List (Call K)) :
    (run db calls).recentWindow = db.recentWindow ∧ (run db calls).decayFactor = db.decayFactor := by
  refine List.foldlRecOn calls _ (motive := fun r : TransitionDatabase K =>
    r.recentWindow = db.recentWindow ∧ r.decayFactor = db.decayFactor) ⟨rfl, rfl⟩ ?_
  rintro r hr (⟨decision, streamId⟩ | streamId) -
  · show (((TransitionDatabase.record decision streamId).exec r).2).recentWindow = _ ∧ _
    unfold Call.perform TransitionDatabase.record
    dsimp only
    rw [exec_throwIf_bind]
    split
    · exact hr
    · show (TransitionDatabase.observe _ _ r).recentWindow = _ ∧
        (TransitionDatabase.observe _ _ r).decayFactor = _
      rw [TransitionDatabase.observe_eq]
      exact hr
  · exact hr

theorem Represents.cooccurrenceCount {events : List Event} (h : Represents events db)
    (x y : ExpertSelection) :
    db.cooccurrenceCount x y = if x = y then 0 else overStreams (meets x y) events := by
  unfold TransitionDatabase.cooccurrenceCount
  split
  · rfl
  · next hne => exact h.pairs x y hne

/-- the counters are the counts on the streams, whatever their interleaving, and the statistics of
a layer are read off the history -/
theorem run_counts (h : TransitionDatabase.new recentWindow (some d) = .ok db)
    (calls : List (Call K)) :
    (∀ x, (run db calls).frequency x = overStreams (uses x) (history calls)) ∧
    (∀ x y, (run db calls).transitionCount x y = overStreams (joins x y) (history calls)) ∧
    (∀ x y, (run db calls).cooccurrenceCount x y =
      if x = y then 0 else overStreams (meets x y) (history calls)) ∧
    (∀ calls' : List (Call K),
      (∀ stream, streamOf stream (history calls') = streamOf stream (history calls)) →
      (∀ x, (run db calls').frequency x = (run db calls).frequency x) ∧
      (∀ x y, (run db calls').transitionCount x y = (run db calls).transitionCount x y) ∧
      ∀ x y, (run db calls').cooccurrenceCount x y = (run db calls).cooccurrenceCount x y) ∧
    ∀ targetLayer sources, StatisticsRead (history calls) recentWindow d targetLayer sources
      ((run db calls).predictionStatistics targetLayer sources) := by
  obtain ⟨hnew, rfl, rfl⟩ := new_eq_ok h
  have hrun : ∀ calls : List (Call K), Represents (history calls) (run db calls) := fun calls =>
    run_represents hnew
  refine ⟨(hrun calls).frequency, (hrun calls).transitionCount, (hrun calls).cooccurrenceCount,
    fun calls' hstreams => ⟨fun x => ?_, fun x y => ?_, fun x y => ?_⟩,
    fun targetLayer sources => ?_⟩
  · rw [(hrun calls').frequency, (hrun calls).frequency, overStreams_congr hstreams]
  · rw [(hrun calls').transitionCount, (hrun calls).transitionCount, overStreams_congr hstreams]
  · rw [(hrun calls').cooccurrenceCount, (hrun calls).cooccurrenceCount, overStreams_congr hstreams]
  · obtain ⟨hwindow, hfactor⟩ := config_run db calls
    rw [← hwindow, ← hfactor]
    exact TransitionDatabase.statistics_read (hrun calls)

end

/-- two streams, interleaved and one after the other -/
def sampleCalls : List (Call ℚ) :=
  [.record ⟨0, [1, 2], [1, 1]⟩ 7, .record ⟨0, [3], [1]⟩ 8, .record ⟨1, [2], [1]⟩ 7, .endStream 7]

def sampleCalls' : List (Call ℚ) :=
  [.record ⟨0, [1, 2], [1, 1]⟩ 7, .record ⟨1, [2], [1]⟩ 7, .endStream 7, .record ⟨0, [3], [1]⟩ 8]

theorem sampleWindow_pos : 2 ≠ 0 := by decide

def sampleDatabase : TransitionDatabase ℚ :=
  { recentWindow := 2, decayFactor := 1 / 2, recentWindow_pos := sampleWindow_pos,
    decayFactor_pos := by decide +kernel, decayFactor_le_one := by decide +kernel }

theorem run_counts_sample :
    (run sampleDatabase sampleCalls).transitionCount ⟨0, 2⟩ ⟨1, 2⟩ =
      overStreams (joins ⟨0, 2⟩ ⟨1, 2⟩) (history sampleCalls) ∧
    overStreams (joins ⟨0, 2⟩ ⟨1, 2⟩) (history sampleCalls) = 1 ∧
    (run sampleDatabase sampleCalls').transitionCount ⟨0, 2⟩ ⟨1, 2⟩ =
      (run sampleDatabase sampleCalls).transitionCount ⟨0, 2⟩ ⟨1, 2⟩ := by
  have hnew : TransitionDatabase.new 2 (some (1 / 2)) = .ok sampleDatabase :=
    dif_pos ⟨by decide, by decide +kernel, by decide +kernel⟩
  obtain ⟨-, hjoins, -, hinterleaved, -⟩ := run_counts hnew sampleCalls
  have hall : ∀ calls ∈ [sampleCalls, sampleCalls'], streams (history calls) = {7, 8} := by
    decide +kernel
  have hstreams : ∀ stream, streamOf stream (history sampleCalls') =
      streamOf stream (history sampleCalls) := by
    intro stream
    by_cases h : stream = 7
    · subst h
      rfl
    · by_cases h' : stream = 8
      · subst h'
        rfl
      · have hnone : ∀ calls ∈ [sampleCalls, sampleCalls'], streamOf stream (history calls) = [] := by
          intro calls hcalls
          by_contra hsome
          have hmem := (mem_streams (history calls)).mpr hsome
          rw [hall calls hcalls] at hmem
          simp [h, h'] at hmem
        rw [hnone sampleCalls' (by simp), hnone sampleCalls (by simp)]
  exact ⟨hjoins _ _, by decide +kernel, (hinterleaved sampleCalls' hstreams).2.1 _ _⟩

end HyperMoE.Prediction
