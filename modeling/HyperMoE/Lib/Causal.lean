import Mathlib.Data.List.Basic

/-!
# Causal layers

A stack of layers that reads a sequence of rows.  A layer keeps a memory with one entry for each
position it has read, and answers a row from the memory up to the position of the row.

* `CausalLayer`       when a row is taken in, what is remembered of it, when and how it is answered;
* `Steps`, `Pass`     one layer, or all of them, over consecutive rows;
* `pass_append`       two sequences one after the other are one sequence;
* `pass_of_pieces`, `pieces_of_pass`   and so are any number of them.
-/

namespace HyperMoE.Lib

structure CausalLayer (α μ : Type) where
  /-- the row is taken in at this position -/
  admits : Nat → α → Prop
  entry : Nat → α → μ
  /-- the row is answered from this memory -/
  answers : List μ → Nat → α → Prop
  answer : List μ → Nat → α → α
  answers_take : ∀ m p a, p < m.length → (answers (m.take (p + 1)) p a ↔ answers m p a)
  answer_take : ∀ m p a, p < m.length → answer (m.take (p + 1)) p a = answer m p a

namespace Causal

variable {α μ : Type} {L : CausalLayer α μ} {Ls : List (CausalLayer α μ)}

def entries (L : CausalLayer α μ) (n : Nat) (rows : List α) : List μ :=
  rows.mapIdx fun i a => L.entry (n + i) a

/-- the layer has read `n` rows, and now reads `rows` -/
structure Steps (L : CausalLayer α μ) (n : Nat) (m : List μ) (rows : List α) (m' : List μ)
    (outs : List α) : Prop where
  start : m.length = n
  admitted : ∀ i (h : i < rows.length), L.admits (n + i) rows[i]
  memory : m' = m ++ entries L n rows
  answered : ∀ i (h : i < rows.length), L.answers m' (n + i) rows[i]
  output : outs = rows.mapIdx fun i a => L.answer m' (n + i) a

/-- every layer reads what the layer before it answers -/
def Pass : List (CausalLayer α μ) → Nat → List (List μ) → List α → List (List μ) → List α → Prop
  | [], _, ms, rows, ms', outs => ms' = ms ∧ outs = rows
  | L :: Ls, n, ms, rows, ms', outs => ∃ m rest m' rest' mid, ms = m :: rest ∧ ms' = m' :: rest' ∧
      Steps L n m rows m' mid ∧ Pass Ls n rest mid rest' outs

/-- one pass after another -/
def Pieces (Ls : List (CausalLayer α μ)) :
    Nat → List (List μ) → List (List α) → List (List μ) → List (List α) → Prop
  | _, ms, [], ms', outs => ms' = ms ∧ outs = []
  | n, ms, rows :: pieces, ms', outs => ∃ mid out rest, Pass Ls n ms rows mid out ∧
      Pieces Ls (n + rows.length) mid pieces ms' rest ∧ outs = out :: rest

variable {n : Nat} {m m' m'' : List μ} {rows a b outs : List α}

@[simp] theorem length_entries : (entries L n rows).length = rows.length := List.length_mapIdx

theorem entries_append : entries L n (a ++ b) = entries L n a ++ entries L (n + a.length) b := by
  unfold entries
  rw [List.mapIdx_append]
  congr 1
  apply List.mapIdx_eq_mapIdx_iff.mpr
  intro i hi
  rw [Nat.add_assoc, Nat.add_comm a.length]

theorem Steps.length_memory (h : Steps L n m rows m' outs) : m'.length = n + rows.length := by
  rw [h.memory, List.length_append, h.start, length_entries]

theorem Steps.length_output (h : Steps L n m rows m' outs) : outs.length = rows.length := by
  rw [h.output, List.length_mapIdx]

theorem Steps.unique {outs' : List α} (h : Steps L n m rows m' outs)
    (h' : Steps L n m rows m'' outs') : m' = m'' ∧ outs = outs' := by
  have hmemory : m' = m'' := h.memory.trans h'.memory.symm
  subst hmemory
  exact ⟨rfl, h.output.trans h'.output.symm⟩

theorem Pass.unique {ms ms' ms'' : List (List μ)} {outs' : List α} (h : Pass Ls n ms rows ms' outs)
    (h' : Pass Ls n ms rows ms'' outs') : ms' = ms'' ∧ outs = outs' := by
  induction Ls generalizing ms ms' ms'' rows with
  | nil => exact ⟨h.1.trans h'.1.symm, h.2.trans h'.2.symm⟩
  | cons L Ls ih =>
    obtain ⟨m, rest, m₁, rest₁, mid, rfl, rfl, hsteps, hpass⟩ := h
    obtain ⟨_, _, m₂, rest₂, mid', hms, rfl, hsteps', hpass'⟩ := h'
    obtain ⟨rfl, rfl⟩ := List.cons.inj hms
    obtain ⟨rfl, rfl⟩ := hsteps.unique hsteps'
    obtain ⟨rfl, rfl⟩ := ih hpass hpass'
    exact ⟨rfl, rfl⟩

/-- entries behind a row do not count for it -/
theorem answers_append {p : Nat} {x : α} (hp : p < m.length) :
    (L.answers (m ++ m') p x ↔ L.answers m p x) := by
  have hp' : p < (m ++ m').length := by
    rw [List.length_append]
    omega
  rw [← L.answers_take _ _ _ hp, ← L.answers_take _ _ _ hp', List.take_append_of_le_length hp]

theorem answer_append {p : Nat} {x : α} (hp : p < m.length) :
    L.answer (m ++ m') p x = L.answer m p x := by
  have hp' : p < (m ++ m').length := by
    rw [List.length_append]
    omega
  rw [← L.answer_take _ _ _ hp, ← L.answer_take _ _ _ hp', List.take_append_of_le_length hp]

theorem steps_append : Steps L n m (a ++ b) m'' outs ↔
    ∃ m' oa ob, Steps L n m a m' oa ∧ Steps L (n + a.length) m' b m'' ob ∧ outs = oa ++ ob := by
  have hget : ∀ i (h : i < b.length) (h' : a.length + i < (a ++ b).length),
      (a ++ b)[a.length + i] = b[i] := by
    intro i h h'
    rw [List.getElem_append_right (Nat.le_add_right _ _)]
    simp only [Nat.add_sub_cancel_left]
  constructor
  · intro h
    have hlength : (m ++ entries L n a).length = n + a.length := by
      rw [List.length_append, h.start, length_entries]
    have hmemory : m'' = (m ++ entries L n a) ++ entries L (n + a.length) b := by
      rw [h.memory, entries_append, List.append_assoc]
    refine ⟨m ++ entries L n a, _, _, ⟨h.start, fun i hi => ?_, rfl, fun i hi => ?_, rfl⟩,
      ⟨hlength, fun i hi => ?_, hmemory, fun i hi => ?_, rfl⟩, ?_⟩
    · have hadmits := h.admitted i (by rw [List.length_append]; omega)
      rwa [List.getElem_append_left hi] at hadmits
    · have hanswers := h.answered i (by rw [List.length_append]; omega)
      rw [List.getElem_append_left hi, hmemory, answers_append (by omega)] at hanswers
      exact hanswers
    · have hadmits := h.admitted (a.length + i) (by rw [List.length_append]; omega)
      rw [hget i hi _, ← Nat.add_assoc] at hadmits
      exact hadmits
    · have hanswers := h.answered (a.length + i) (by rw [List.length_append]; omega)
      rw [hget i hi _, ← Nat.add_assoc] at hanswers
      exact hanswers
    · rw [h.output, List.mapIdx_append]
      congr 1
      · apply List.mapIdx_eq_mapIdx_iff.mpr
        intro i hi
        rw [hmemory, answer_append (by omega)]
      · apply List.mapIdx_eq_mapIdx_iff.mpr
        intro i hi
        rw [Nat.add_comm i, ← Nat.add_assoc]
  · rintro ⟨m', oa, ob, ha, hb, rfl⟩
    have hmemory : m'' = m ++ entries L n (a ++ b) := by
      rw [hb.memory, ha.memory, entries_append, List.append_assoc]
    have hlength := ha.length_memory
    refine ⟨ha.start, fun i hi => ?_, hmemory, fun i hi => ?_, ?_⟩
    · rcases Nat.lt_or_ge i a.length with h | h
      · rw [List.getElem_append_left h]
        exact ha.admitted i h
      · obtain ⟨k, rfl⟩ := Nat.exists_eq_add_of_le h
        rw [List.length_append] at hi
        rw [hget k (by omega) _, ← Nat.add_assoc]
        exact hb.admitted k (by omega)
    · rcases Nat.lt_or_ge i a.length with h | h
      · rw [List.getElem_append_left h, hb.memory, answers_append (by omega)]
        exact ha.answered i h
      · obtain ⟨k, rfl⟩ := Nat.exists_eq_add_of_le h
        rw [List.length_append] at hi
        rw [hget k (by omega) _, ← Nat.add_assoc]
        exact hb.answered k (by omega)
    · rw [ha.output, hb.output, List.mapIdx_append]
      congr 1
      · apply List.mapIdx_eq_mapIdx_iff.mpr
        intro i hi
        rw [hb.memory, answer_append (by omega)]
      · apply List.mapIdx_eq_mapIdx_iff.mpr
        intro i hi
        rw [Nat.add_comm i, ← Nat.add_assoc]

theorem Pass.length {ms ms' : List (List μ)} (h : Pass Ls n ms rows ms' outs) :
    outs.length = rows.length := by
  induction Ls generalizing ms ms' rows with
  | nil => rw [h.2]
  | cons L Ls ih =>
    obtain ⟨m, rest, m', rest', mid, -, -, hsteps, hpass⟩ := h
    rw [ih hpass, hsteps.length_output]

theorem pass_append {ms ms'' : List (List μ)} : Pass Ls n ms (a ++ b) ms'' outs ↔
    ∃ ms' oa ob, Pass Ls n ms a ms' oa ∧ Pass Ls (n + a.length) ms' b ms'' ob ∧
      outs = oa ++ ob := by
  induction Ls generalizing ms ms'' a b with
  | nil =>
    constructor
    · rintro ⟨rfl, rfl⟩
      exact ⟨ms'', a, b, ⟨rfl, rfl⟩, ⟨rfl, rfl⟩, rfl⟩
    · rintro ⟨ms', oa, ob, ⟨rfl, rfl⟩, ⟨rfl, rfl⟩, rfl⟩
      exact ⟨rfl, rfl⟩
  | cons L Ls ih =>
    constructor
    · rintro ⟨m, rest, m'', rest'', mid, rfl, rfl, hsteps, hpass⟩
      obtain ⟨m', ma, mb, hsa, hsb, rfl⟩ := steps_append.mp hsteps
      obtain ⟨rest', oa, ob, hpa, hpb, rfl⟩ := ih.mp hpass
      rw [hsa.length_output] at hpb
      exact ⟨m' :: rest', oa, ob, ⟨m, rest, m', rest', ma, rfl, rfl, hsa, hpa⟩,
        ⟨m', rest', m'', rest'', mb, rfl, rfl, hsb, hpb⟩, rfl⟩
    · rintro ⟨ms', oa, ob, ⟨m, rest, m', rest', ma, rfl, rfl, hsa, hpa⟩,
        ⟨_, _, m'', rest'', mb, hms', rfl, hsb, hpb⟩, rfl⟩
      obtain ⟨rfl, rfl⟩ := List.cons.inj hms'
      rw [← hsa.length_output] at hpb
      exact ⟨m, rest, m'', rest'', ma ++ mb, rfl, rfl, steps_append.mpr ⟨m', ma, mb, hsa, hsb, rfl⟩,
        ih.mpr ⟨rest', oa, ob, hpa, hpb, rfl⟩⟩

theorem pass_of_pieces {ms ms' : List (List μ)} {rows : List α} {pieces outs : List (List α)}
    (h : Pieces Ls n ms (rows :: pieces) ms' outs) :
    Pass Ls n ms (rows :: pieces).flatten ms' outs.flatten := by
  induction pieces generalizing n ms rows outs with
  | nil =>
    obtain ⟨mid, out, rest, hpass, ⟨rfl, rfl⟩, rfl⟩ := h
    simp only [List.flatten_cons, List.flatten_nil, List.append_nil]
    exact hpass
  | cons next pieces ih =>
    obtain ⟨mid, out, rest, hpass, hpieces, rfl⟩ := h
    rw [List.flatten_cons, List.flatten_cons]
    exact pass_append.mpr ⟨mid, out, rest.flatten, hpass, ih hpieces, rfl⟩

/-- Reading at once, of at least one piece, is reading in pieces. -/
theorem pieces_of_pass {ms ms' : List (List μ)} {rows out : List α} {pieces : List (List α)}
    (h : Pass Ls n ms (rows :: pieces).flatten ms' out) :
    ∃ outs, Pieces Ls n ms (rows :: pieces) ms' outs ∧ outs.flatten = out := by
  induction pieces generalizing n ms rows out with
  | nil =>
    rw [List.flatten_cons, List.flatten_nil, List.append_nil] at h
    refine ⟨[out], ⟨ms', out, [], h, ⟨rfl, rfl⟩, rfl⟩, ?_⟩
    rw [List.flatten_cons, List.flatten_nil, List.append_nil]
  | cons next pieces ih =>
    rw [List.flatten_cons] at h
    obtain ⟨mid, oa, ob, hpass, hrest, rfl⟩ := pass_append.mp h
    obtain ⟨outs, hpieces, rfl⟩ := ih hrest
    exact ⟨oa :: outs, ⟨mid, oa, outs, hpass, hpieces, rfl⟩, List.flatten_cons⟩

end Causal

end HyperMoE.Lib
