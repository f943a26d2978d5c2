import HyperMoE.Prediction.TransitionDatabase

/-!
# What the database has counted

The calls as a history of events, and the counts read off that history directly.

* `streamOf`, `uses`, `joins`, `meets`   the sequence of one stream, and the counts on it;
* `overStreams`                          their sum over the streams: it does not depend on how the
                                         streams are interleaved;
* `decisions`                            the decisions of all streams in order, each with what its
                                         stream selected before.
-/

namespace HyperMoE.Prediction

open Lib Lib.Fallible Tensor Router Finset

/-! ## histories -/

/-- a decision of a stream, or its end -/
structure Event where
  stream : StreamId
  experts : Option (List ExpertSelection)

abbrev Sequence := List (Option (List ExpertSelection))

/-- the decisions of one stream in order, with the ends between them -/
def streamOf (stream : StreamId) (events : List Event) : Sequence :=
  (events.filter fun e => e.stream = stream).map Event.experts

def chosen (d : Option (List ExpertSelection)) : List ExpertSelection := d.getD []

/-- what the stream selected last, unless it was ended since -/
def lastOf (sequence : Sequence) : List ExpertSelection := chosen sequence.getLast?.join

/-- how often the stream selected `x`; an expert is selected at most once in a decision without
repetitions -/
def uses (x : ExpertSelection) (sequence : Sequence) : Nat :=
  (sequence.map fun d => (chosen d).count x).sum

/-- how often `y` followed `x` in the next decision of the stream -/
def joins (x y : ExpertSelection) : Sequence → Nat
  | [] => 0
  | [_] => 0
  | d :: e :: rest => (chosen d).count x * (chosen e).count y + joins x y (e :: rest)

/-- how often `x` and `y` were selected together -/
def meets (x y : ExpertSelection) (sequence : Sequence) : Nat :=
  (sequence.map fun d => (chosen d).count x * (chosen d).count y).sum

def streams (events : List Event) : Finset StreamId := (events.map Event.stream).toFinset

def overStreams (f : Sequence → Nat) (events : List Event) : Nat :=
  ∑ stream ∈ streams events, f (streamOf stream events)

/-- every decision, with what its stream selected just before -/
def decisionsAfter (before : List Event) :
    List Event → List (List ExpertSelection × List ExpertSelection)
  | [] => []
  | e :: rest =>
    (e.experts.map fun current => (lastOf (streamOf e.stream before), current)).toList ++
      decisionsAfter (before ++ [e]) rest

def decisions (events : List Event) : List (List ExpertSelection × List ExpertSelection) :=
  decisionsAfter [] events

/-! ## one more event -/

section
variable (x y : ExpertSelection) (sequence : Sequence) (d : Option (List ExpertSelection))
  (events : List Event) (e : Event)

theorem streamOf_append (stream : StreamId) : streamOf stream (events ++ [e]) =
    streamOf stream events ++ if e.stream = stream then [e.experts] else [] := by
  unfold streamOf
  rw [List.filter_append, List.map_append]
  by_cases h : e.stream = stream <;> simp [h]

theorem mem_streams {stream : StreamId} : stream ∈ streams events ↔ streamOf stream events ≠ [] := by
  unfold streams streamOf
  rw [List.mem_toFinset, List.mem_map, Ne, List.map_eq_nil_iff, List.filter_eq_nil_iff]
  push Not
  simp

theorem lastOf_append : lastOf (sequence ++ [d]) = chosen d := by
  unfold lastOf
  rw [List.getLast?_append]
  rfl

theorem uses_append : uses x (sequence ++ [d]) = uses x sequence + (chosen d).count x := by
  simp [uses]

theorem meets_append : meets x y (sequence ++ [d]) =
    meets x y sequence + (chosen d).count x * (chosen d).count y := by
  simp [meets]

theorem joins_append : joins x y (sequence ++ [d]) =
    joins x y sequence + (lastOf sequence).count x * (chosen d).count y := by
  induction sequence with
  | nil => simp [joins, lastOf, chosen]
  | cons a sequence ih =>
    cases sequence with
    | nil => simp [joins, lastOf, chosen]
    | cons b rest =>
      have hlast : lastOf (a :: b :: rest) = lastOf (b :: rest) := by
        unfold lastOf
        rw [List.getLast?_cons_cons]
      show (chosen a).count x * (chosen b).count y + joins x y (b :: rest ++ [d]) = _
      rw [ih, hlast, ← Nat.add_assoc]
      rfl

theorem decisionsAfter_append (before : List Event) :
    decisionsAfter before (events ++ [e]) = decisionsAfter before events ++
      (e.experts.map fun current => (lastOf (streamOf e.stream (before ++ events)), current)).toList := by
  induction events generalizing before with
  | nil => simp [decisionsAfter]
  | cons a events ih =>
    show _ ++ decisionsAfter (before ++ [a]) (events ++ [e]) = _
    rw [ih, ← List.append_assoc, List.append_assoc before [a] events]
    rfl

theorem decisions_append : decisions (events ++ [e]) = decisions events ++
    (e.experts.map fun current => (lastOf (streamOf e.stream events), current)).toList :=
  decisionsAfter_append events e []

variable {f : Sequence → Nat} {g : Sequence → Option (List ExpertSelection) → Nat}

/-- a count that grows by `g` with each event of a stream -/
theorem overStreams_append (hzero : f [] = 0) (hf : ∀ s d, f (s ++ [d]) = f s + g s d) :
    overStreams f (events ++ [e]) = overStreams f events + g (streamOf e.stream events) e.experts := by
  have hstreams : streams (events ++ [e]) = insert e.stream (streams events) := by
    ext stream
    simp [streams]
  have hmem : e.stream ∈ insert e.stream (streams events) := mem_insert_self _ _
  have hbefore : overStreams f events =
      ∑ stream ∈ insert e.stream (streams events), f (streamOf stream events) := by
    refine sum_subset (subset_insert _ _) fun stream _ hn => ?_
    rw [mem_streams, not_not] at hn
    rw [hn, hzero]
  rw [hbefore]
  unfold overStreams
  rw [hstreams, ← add_sum_erase _ _ hmem, ← add_sum_erase _ (fun s => f (streamOf s events)) hmem,
    streamOf_append, if_pos rfl, hf, add_right_comm]
  congr 1
  congr 1
  refine sum_congr rfl fun stream hs => ?_
  rw [streamOf_append, if_neg (ne_of_mem_erase hs).symm, List.append_nil]

end

/-- the streams alone decide the counts, not how they are interleaved -/
theorem overStreams_congr {f : Sequence → Nat} {events events' : List Event}
    (h : ∀ stream, streamOf stream events = streamOf stream events') :
    overStreams f events = overStreams f events' := by
  have hstreams : streams events = streams events' := by
    ext stream
    rw [mem_streams, mem_streams, h]
  unfold overStreams
  rw [hstreams]
  exact sum_congr rfl fun stream _ => by rw [h]

/-! ## counting the keys of one decision -/

theorem count_transitionsBetween (previous current : List ExpertSelection) (x y : ExpertSelection) :
    (transitionsBetween previous current).count ⟨x, y⟩ = previous.count x * current.count y := by
  have hrow : ∀ a, (current.map fun target => (⟨a, target⟩ : ExpertTransition)).count ⟨x, y⟩ =
      if a = x then current.count y else 0 := by
    intro a
    induction current with
    | nil => simp
    | cons b current ih =>
      rw [List.map_cons, List.count_cons, ih, List.count_cons]
      by_cases ha : a = x <;> simp [ha]
  unfold transitionsBetween
  induction previous with
  | nil => simp
  | cons a previous ih =>
    rw [List.flatMap_cons, List.count_append, ih, hrow, List.count_cons, Nat.add_mul]
    by_cases ha : a = x <;> simp [ha, Nat.add_comm]

theorem less_asymm {a b : ExpertSelection} (h : less a b) : ¬ less b a := by
  rcases h with h | ⟨h, h'⟩
  · rintro (h₁ | ⟨h₁, -⟩)
    · exact Nat.lt_asymm h h₁
    · exact Nat.ne_of_lt h h₁.symm
  · rintro (h₁ | ⟨-, h₁⟩)
    · exact Nat.ne_of_lt h₁ h.symm
    · exact Nat.lt_asymm h' h₁

/-- of two different selections one is less -/
theorem eq_of_not_less {a b : ExpertSelection} (h : ¬ less a b) (h' : ¬ less b a) : a = b := by
  unfold less at h h'
  push Not at h h'
  have hlayer : a.layerId = b.layerId := Nat.le_antisymm h'.1 h.1
  have hexpert : a.expertId = b.expertId := Nat.le_antisymm (h'.2 hlayer.symm) (h.2 hlayer)
  exact congrArg₂ ExpertSelection.mk hlayer hexpert

theorem orderedPair_comm (a b : ExpertSelection) : orderedPair a b = orderedPair b a := by
  unfold orderedPair
  by_cases h : less b a
  · rw [if_pos h, if_neg (less_asymm h)]
  · by_cases h' : less a b
    · rw [if_neg h, if_pos h']
    · rw [eq_of_not_less h' h]

theorem orderedPair_eq_iff (a b x y : ExpertSelection) :
    orderedPair a b = orderedPair x y ↔ (a = x ∧ b = y) ∨ (a = y ∧ b = x) := by
  constructor
  · intro h
    unfold orderedPair at h
    split at h <;> split at h <;> obtain ⟨rfl, rfl⟩ := ExpertCooccurrence.mk.inj h <;> simp
  · rintro (⟨rfl, rfl⟩ | ⟨rfl, rfl⟩)
    · rfl
    · exact orderedPair_comm a b

theorem count_pairsOf (current : List ExpertSelection) {x y : ExpertSelection} (h : x ≠ y) :
    (pairsOf current).count (orderedPair x y) = current.count x * current.count y := by
  have hrow : ∀ a (rest : List ExpertSelection), (rest.map (orderedPair a)).count (orderedPair x y) =
      (if a = x then rest.count y else 0) + if a = y then rest.count x else 0 := by
    intro a rest
    induction rest with
    | nil => simp
    | cons b rest ih =>
      rw [List.map_cons, List.count_cons, ih, List.count_cons, List.count_cons]
      simp only [beq_iff_eq, orderedPair_eq_iff]
      by_cases hx : a = x
      · have hy : a ≠ y := fun e => h (hx.symm.trans e)
        simp [hx, h]
      · by_cases hy : a = y <;> simp [hx, hy, Ne.symm h]
  induction current with
  | nil => simp [pairsOf]
  | cons a rest ih =>
    show (rest.map (orderedPair a) ++ pairsOf rest).count _ = _
    rw [List.count_append, hrow, ih, List.count_cons, List.count_cons]
    by_cases hx : a = x
    · have hy : a ≠ y := fun e => h (hx.symm.trans e)
      simp [hx, h, Nat.add_mul, Nat.add_comm]
    · by_cases hy : a = y
      · simp [hy, Ne.symm h, Nat.mul_add, Nat.add_comm]
      · simp [hx, hy]

end HyperMoE.Prediction
