import HyperMoE.Experts.ExpertExecutor
import HyperMoE.Router.CpuRouterBackend

/-!
# A mixture layer

`MoERuntime.cpp`, `ExpertBatch.cpp`: a batch is routed, each selected expert is run once on the rows
of its tokens, and the weighted rows of its output are added to the rows of the tokens.

* `ExpertBatch.validate`   the checks on a group;
* `gatherRows`, `scatterAdd`   the way in and the way out;
* `executeBatch`           the layer;
* `mixture`                what a token should get: the sum over its experts.

Where the experts are resident, and when they are loaded, is the business of the scheduler and of the
manager; here an expert is run when its turn comes.
-/

namespace HyperMoE.Runtime

open Lib Lib.Outcome Tensor Models Router Experts

structure ExpertBatch (K : Type) where
  layerId : LayerId
  expertId : ExpertId
  tokenIndices : List Nat
  routingWeights : List K
  deriving DecidableEq

structure BatchLayerExecutionResult (K : Type) where
  routing : BatchRouterDecision K
  batches : List (ExpertBatch K)
  expertOutputs : List (Grid K)
  output : Grid K
  deriving DecidableEq

/-- what the runtime has of the experts -/
structure ExpertRuntime (K : Type) where
  /-- `weightMap_.require(layerId, expertId).downProjection->shape.dimensions()[1]` -/
  outputWidth : LayerId → ExpertId → Except StdError Nat
  /-- the executor on the views of a resident expert: input, and the extents of the output -/
  execute : LayerId → ExpertId → Grid K → Nat → Nat → Except StdError (Grid K)

variable {K : Type}

namespace ExpertBatch

def size (batch : ExpertBatch K) : Nat := batch.tokenIndices.length

/-- `for (index ...) if (tokenIndices[index] >= tokenCount || !seen.insert(...).second) throw ...;`
The weights of exact arithmetic are finite. -/
def validateIndices (tokenCount : Nat) (seen : List Nat) : List Nat → Except StdError Unit
  | [] => pure ()
  | token :: tokens => do
    throwIf (token ≥ tokenCount ∨ token ∈ seen)
      (.invalid_argument "expert batch contains an invalid token assignment")
    validateIndices tokenCount (token :: seen) tokens

def validate (batch : ExpertBatch K) (tokenCount : Nat) : Except StdError Unit := do
  throwIf (tokenCount = 0 ∨ batch.tokenIndices = [] ∨
      batch.tokenIndices.length ≠ batch.routingWeights.length)
    (.invalid_argument "expert batch metadata is incomplete")
  validateIndices tokenCount [] batch.tokenIndices

end ExpertBatch

/-- `ExpertBatch batch{layerId, group.expertId, group.tokenIndices, group.routingScores};` -/
def batchOf (layerId : LayerId) (group : ExpertTokenGroup K) : ExpertBatch K where
  layerId := layerId
  expertId := group.expertId
  tokenIndices := group.tokenIndices
  routingWeights := group.routingScores

def makeBatch (layerId : LayerId) (tokenCount : Nat) (group : ExpertTokenGroup K) :
    Except StdError (ExpertBatch K) := do
  (batchOf layerId group).validate tokenCount
  return batchOf layerId group

variable [Field K]

/-- the rows of the tokens of a group, copied one after another -/
def gatherRows (hiddenStates : Grid K) (tokenIndices : List Nat) : Grid K :=
  Grid.generate tokenIndices.length hiddenStates.columns fun row column =>
    hiddenStates.get (tokenIndices.getD row 0) column

/-- `for (hidden ...) combined[token * width + hidden] += weight * values[row * width + hidden];` -/
def addRow (combined : Grid K) (token : Nat) (weight : K) (values : Grid K) (row : Nat) : Grid K :=
  combined.modifyRow token fun hidden value => value + weight * values.get row hidden

def scatterAdd (combined : Grid K) (batch : ExpertBatch K) (values : Grid K) : Grid K :=
  (List.range batch.size).foldl (fun combined row =>
    addRow combined (batch.tokenIndices.getD row 0) (batch.routingWeights.getD row 0) values row)
    combined

/-- `std::fill_n(hostCombined, 0.0F)` -/
def zeros (rows columns : Nat) : Grid K := Grid.generate rows columns fun _ _ => 0

/-! ## the way out -/

/-- the assignments that a batch carries out -/
def ExpertBatch.assignments (batch : ExpertBatch K) : List (ExpertId × Nat × K) :=
  (batch.tokenIndices.zip batch.routingWeights).map (Prod.mk batch.expertId)

/-- what an assignment adds at token `t` and feature `h` -/
def contribution (f : ExpertId → List K → List K) (hiddenStates : Grid K) (t h : Nat)
    (a : ExpertId × Nat × K) : K :=
  if a.2.1 = t then a.2.2 * (f a.1 (hiddenStates.row a.2.1)).getD h 0 else 0

/-- `Σ` over the selected experts of a token: its score times the expert on the row of the token -/
def mixture (d : RouterDecision K) (f : ExpertId → List K → List K) (row : List K) (h : Nat) : K :=
  ((d.selectedExpertIds.zip d.routingScores).map fun p => p.2 * (f p.1 row).getD h 0).sum

section
variable {combined values : Grid K}

@[simp] theorem addRow_rows (combined : Grid K) (token : Nat) (weight : K) (values : Grid K)
    (row : Nat) : (addRow combined token weight values row).rows = combined.rows :=
  Grid.rows_modifyRow

@[simp] theorem addRow_columns (combined : Grid K) (token : Nat) (weight : K) (values : Grid K)
    (row : Nat) : (addRow combined token weight values row).columns = combined.columns :=
  Grid.columns_modifyRow

theorem foldl_addRow_shape (values : Grid K) (token : Nat → Nat) (weight : Nat → K)
    (rows : List Nat) (combined : Grid K) :
    (rows.foldl (fun combined row => addRow combined (token row) (weight row) values row)
      combined).rows = combined.rows ∧
    (rows.foldl (fun combined row => addRow combined (token row) (weight row) values row)
      combined).columns = combined.columns := by
  induction rows generalizing combined with
  | nil => exact ⟨rfl, rfl⟩
  | cons row rows ih =>
    obtain ⟨hrows, hcolumns⟩ := ih (addRow combined (token row) (weight row) values row)
    rw [addRow_rows] at hrows
    rw [addRow_columns] at hcolumns
    exact ⟨hrows, hcolumns⟩

@[simp] theorem scatterAdd_rows (combined : Grid K) (batch : ExpertBatch K) (values : Grid K) :
    (scatterAdd combined batch values).rows = combined.rows :=
  (foldl_addRow_shape values _ _ _ combined).1

@[simp] theorem scatterAdd_columns (combined : Grid K) (batch : ExpertBatch K) (values : Grid K) :
    (scatterAdd combined batch values).columns = combined.columns :=
  (foldl_addRow_shape values _ _ _ combined).2

theorem foldl_scatterAdd_shape (ps : List (ExpertBatch K × Grid K)) (combined : Grid K) :
    (ps.foldl (fun combined p => scatterAdd combined p.1 p.2) combined).rows = combined.rows ∧
    (ps.foldl (fun combined p => scatterAdd combined p.1 p.2) combined).columns =
      combined.columns := by
  induction ps generalizing combined with
  | nil => exact ⟨rfl, rfl⟩
  | cons p ps ih =>
    obtain ⟨hrows, hcolumns⟩ := ih (scatterAdd combined p.1 p.2)
    rw [scatterAdd_rows] at hrows
    rw [scatterAdd_columns] at hcolumns
    exact ⟨hrows, hcolumns⟩

/-- rows added one by one: only the rows of the tokens change, each by its weighted rows -/
theorem foldl_addRow (values : Grid K) (token : Nat → Nat) (weight : Nat → K) (rows : List Nat)
    (htoken : ∀ row ∈ rows, token row < combined.rows) (t : Nat) {h : Nat}
    (hh : h < combined.columns) :
    (rows.foldl (fun combined row => addRow combined (token row) (weight row) values row)
      combined).get t h = combined.get t h +
        (rows.map fun row => if token row = t then weight row * values.get row h else 0).sum := by
  induction rows generalizing combined with
  | nil => exact (add_zero _).symm
  | cons row rows ih =>
    have hrow := htoken row List.mem_cons_self
    have hget := @ih (addRow combined (token row) (weight row) values row)
      (fun r hr => (addRow_rows combined _ _ _ _).symm ▸ htoken r (List.mem_cons_of_mem _ hr))
      ((addRow_columns combined _ _ _ _).symm ▸ hh)
    have hget' : (addRow combined (token row) (weight row) values row).get t h =
        combined.get t h + if token row = t then weight row * values.get row h else 0 := by
      rw [addRow, Grid.get_modifyRow hrow hh]
      by_cases heq : t = token row
      · rw [if_pos heq, if_pos heq.symm]
      · rw [if_neg heq, if_neg (Ne.symm heq), add_zero]
    rw [List.foldl_cons, hget, hget', List.map_cons, List.sum_cons, add_assoc]

/-- two lists that are read side by side -/
theorem map_range_getD {β : Type} (F : Nat → K → β) (l : List Nat) (l' : List K)
    (hlength : l.length = l'.length) :
    ((List.range l.length).map fun i => F (l.getD i 0) (l'.getD i 0)) =
      (l.zip l').map fun p => F p.1 p.2 := by
  apply List.ext_getElem
  · rw [List.length_map, List.length_range, List.length_map, List.length_zip, ← hlength,
      Nat.min_self]
  · intro i hi hi'
    rw [List.length_map, List.length_range] at hi
    rw [List.getElem_map, List.getElem_range, List.getElem_map, List.getElem_zip,
      List.getD_eq_getElem _ _ hi, List.getD_eq_getElem _ _ (hlength ▸ hi)]

theorem row_gatherRows {hiddenStates : Grid K} {tokenIndices : List Nat} {i : Nat}
    (hi : i < tokenIndices.length) :
    (gatherRows hiddenStates tokenIndices).row i = hiddenStates.row (tokenIndices.getD i 0) := by
  unfold Grid.row
  apply List.map_congr_left
  intro c hc
  exact Grid.get_generate _ hi (List.mem_range.mp hc)

/-- a batch whose output is the expert on each of its rows -/
theorem get_scatterAdd {hiddenStates : Grid K} {batch : ExpertBatch K} {width : Nat}
    {f : ExpertId → List K → List K}
    (hpaired : batch.tokenIndices.length = batch.routingWeights.length)
    (htoken : ∀ token ∈ batch.tokenIndices, token < combined.rows)
    (hwidth : combined.columns = width)
    (hvalues : values = (gatherRows hiddenStates batch.tokenIndices).mapRows width
      (f batch.expertId)) :
    ∀ t, ∀ h < combined.columns, (scatterAdd combined batch values).get t h = combined.get t h +
      (batch.assignments.map (contribution f hiddenStates t h)).sum := by
  have htoken' : ∀ row ∈ List.range batch.size,
      batch.tokenIndices.getD row 0 < combined.rows := by
    intro row hrow
    have hlt : row < batch.tokenIndices.length := List.mem_range.mp hrow
    rw [List.getD_eq_getElem _ _ hlt]
    exact htoken _ (List.getElem_mem hlt)
  intro t h hh
  refine (foldl_addRow values (fun row => batch.tokenIndices.getD row 0)
    (fun row => batch.routingWeights.getD row 0) (List.range batch.size) htoken' t hh).trans ?_
  have hterms : ((List.range batch.size).map fun row =>
      if batch.tokenIndices.getD row 0 = t
        then batch.routingWeights.getD row 0 * values.get row h else 0) =
      batch.assignments.map (contribution f hiddenStates t h) := by
    rw [ExpertBatch.assignments, List.map_map]
    refine Eq.trans ?_ (map_range_getD (fun token weight => contribution f hiddenStates t h
      (batch.expertId, token, weight)) _ _ hpaired)
    apply List.map_congr_left
    intro row hrow
    have hlt : row < batch.tokenIndices.length := List.mem_range.mp hrow
    rw [hvalues, Grid.get_mapRows _ hlt (hwidth ▸ hh), row_gatherRows hlt]
    rfl
  rw [hterms]

end

/-- the outputs of all batches, added one after another -/
theorem foldl_scatterAdd {hiddenStates combined : Grid K} {f : ExpertId → List K → List K}
    (ps : List (ExpertBatch K × Grid K))
    (hps : ∀ p ∈ ps, p.1.tokenIndices.length = p.1.routingWeights.length ∧
      (∀ token ∈ p.1.tokenIndices, token < combined.rows) ∧
      p.2 = (gatherRows hiddenStates p.1.tokenIndices).mapRows combined.columns
        (f p.1.expertId)) :
    ∀ t, ∀ h < combined.columns,
      (ps.foldl (fun combined p => scatterAdd combined p.1 p.2) combined).get t h =
        combined.get t h +
          ((ps.flatMap fun p => p.1.assignments).map (contribution f hiddenStates t h)).sum := by
  induction ps generalizing combined with
  | nil => exact fun _ _ _ => (add_zero _).symm
  | cons p ps ih =>
    obtain ⟨hpaired, htoken, hvalues⟩ := hps p List.mem_cons_self
    have hget := get_scatterAdd hpaired htoken rfl hvalues
    have hget' := @ih (scatterAdd combined p.1 p.2) fun q hq => by
      rw [scatterAdd_rows, scatterAdd_columns]
      exact hps q (List.mem_cons_of_mem _ hq)
    intro t h hh
    rw [List.foldl_cons, hget' t h ((scatterAdd_columns combined _ _).symm ▸ hh), hget t h hh,
      List.flatMap_cons, List.map_append, List.sum_append, add_assoc]

/-- the list with its indices, read at one index -/
theorem sum_indexed {α : Type} (m : α → K) (t : Nat) (l : List α) (start : Nat) :
    (((List.range' start l.length).zip l).map fun p => if p.1 = t then m p.2 else 0).sum =
      if start ≤ t then (l[t - start]?).elim 0 m else 0 := by
  induction l generalizing start with
  | nil => simp
  | cons a l ih =>
    rw [List.length_cons, List.range'_succ, List.zip_cons_cons, List.map_cons, List.sum_cons, ih]
    rcases Nat.lt_trichotomy start t with h | h | h
    · have hsub : t - start = (t - (start + 1)) + 1 := by omega
      rw [if_neg (by omega), if_pos (by omega), if_pos (by omega), zero_add, hsub,
        List.getElem?_cons_succ]
    · subst h
      rw [if_pos rfl, if_neg (by omega), if_pos (Nat.le_refl _), Nat.sub_self, add_zero]
      rfl
    · rw [if_neg (by omega), if_neg (by omega), if_neg (by omega), add_zero]

/-- all contributions to a token are those of its own decision -/
theorem sum_contributions {f : ExpertId → List K → List K} {hiddenStates : Grid K} {t h : Nat}
    {tokens : List (RouterDecision K)} (ht : t < tokens.length) :
    ((assignments tokens).map (contribution f hiddenStates t h)).sum =
      mixture tokens[t] f (hiddenStates.row t) h := by
  have hone : ∀ p : Nat × RouterDecision K,
      ((tokenAssignments p.1 p.2).map (contribution f hiddenStates t h)).sum =
        if p.1 = t then mixture p.2 f (hiddenStates.row t) h else 0 := by
    rintro ⟨token, d⟩
    rw [tokenAssignments, List.map_map]
    by_cases heq : token = t
    · subst heq
      rw [if_pos rfl, mixture]
      congr 1
      apply List.map_congr_left
      rintro ⟨expert, score⟩ -
      exact if_pos rfl
    · rw [if_neg heq]
      apply List.sum_eq_zero
      intro x hx
      obtain ⟨⟨expert, score⟩, -, rfl⟩ := List.mem_map.mp hx
      exact if_neg heq
  have hsum := sum_indexed (fun d => mixture d f (hiddenStates.row t) h) t tokens 0
  rw [if_pos (Nat.zero_le _), Nat.sub_zero, List.getElem?_eq_getElem ht,
    ← List.range_eq_range'] at hsum
  rw [assignments, List.map_flatMap, List.flatMap_def, List.sum_flatten, List.map_map]
  refine Eq.trans ?_ hsum
  congr 1
  exact List.map_congr_left fun p _ => hone p

/-! ## the layer -/

variable [LinearOrder K]

def executeBatch (N : Numerics K) (experts : ExpertRuntime K) (config : RouterConfig)
    (layerId : LayerId) (hiddenStates routerWeights : Grid K) :
    Except StdError (BatchLayerExecutionResult K) := do
  let decision ← routeBatch N layerId hiddenStates routerWeights config
  throwIf (¬ decision.valid ∨ decision.tokens.length ≠ hiddenStates.rows)
    (.runtime_error "router returned an invalid batch decision")
  let batches ← collect (makeBatch layerId decision.tokens.length) decision.expertGroups
  let first ← batches.head?.elim (throw (.runtime_error "router produced no expert batches")) pure
  throwIf ((batches.map ExpertBatch.size).sum ≠
      (decision.tokens.map fun token => token.selectedExpertIds.length).sum)
    (.runtime_error "router expert groups omit token assignments")
  let outputWidth ← experts.outputWidth layerId first.expertId
  let (expertOutputs, combined) ← batches.foldlM (fun (expertOutputs, combined) batch => do
      let expertInput := gatherRows hiddenStates batch.tokenIndices
      let expertOutput ←
        experts.execute layerId batch.expertId expertInput batch.size outputWidth
      return (expertOutputs ++ [expertOutput], scatterAdd combined batch expertOutput))
    ([], zeros hiddenStates.rows outputWidth)
  return { routing := decision, batches, expertOutputs, output := combined }

variable {N : Numerics K} {experts : ExpertRuntime K} {config : RouterConfig} {layerId : LayerId}
  {hiddenStates routerWeights : Grid K} {r : BatchLayerExecutionResult K}

omit [Field K] [LinearOrder K] in
theorem validateIndices_eq_ok {tokenCount : Nat} {seen tokens : List Nat} {u : Unit} :
    ExpertBatch.validateIndices tokenCount seen tokens = .ok u ↔
      (∀ token ∈ tokens, token < tokenCount ∧ token ∉ seen) ∧ tokens.Nodup := by
  induction tokens generalizing seen with
  | nil =>
    show pure () = Except.ok u ↔ _
    exact ⟨fun _ => ⟨fun token h => (nomatch h), List.nodup_nil⟩, fun _ => rfl⟩
  | cons token tokens ih =>
    rw [ExpertBatch.validateIndices, throwIf_bind_eq_ok, ih, List.nodup_cons, not_or, Nat.not_le]
    constructor
    · rintro ⟨hhead, htail, hnodup⟩
      refine ⟨fun token' h => ?_, fun h => ?_, hnodup⟩
      · rcases List.mem_cons.mp h with rfl | h
        · exact hhead
        · exact ⟨(htail token' h).1, fun hseen => (htail token' h).2 (List.mem_cons_of_mem _ hseen)⟩
      · exact (htail token h).2 List.mem_cons_self
    · rintro ⟨hall, hnot, hnodup⟩
      refine ⟨hall token List.mem_cons_self, fun token' h => ?_, hnodup⟩
      obtain ⟨hlt, hseen⟩ := hall token' (List.mem_cons_of_mem _ h)
      refine ⟨hlt, fun hmem => ?_⟩
      rcases List.mem_cons.mp hmem with rfl | hmem
      · exact hnot h
      · exact hseen hmem

omit [Field K] [LinearOrder K] in
/-- the checks on a group let a group of the router pass -/
theorem makeBatch_of_groups {tokens : List (RouterDecision K)} {groups : List (ExpertTokenGroup K)}
    {group : ExpertTokenGroup K} (h : GroupsOf tokens groups)
    (hdecided : ∀ d ∈ tokens, Decided layerId config d) (hgroup : group ∈ groups) :
    makeBatch layerId tokens.length group = .ok (batchOf layerId group) := by
  have hpaired := h.paired group hgroup
  have htokens := h.tokens_eq hgroup
  have hlt : ∀ token ∈ group.tokenIndices, token < tokens.length :=
    fun token htoken => h.token_lt hgroup htoken
  have hnodup : group.tokenIndices.Nodup := by
    have hall : ((groups.flatMap ExpertTokenGroup.assignments).map fun a => (a.1, a.2.1)).Nodup :=
      (h.assigned.map _).nodup_iff.mpr (nodup_assignments hdecided)
    rw [List.map_flatMap] at hall
    have hone := (List.nodup_flatMap.mp hall).1 group hgroup
    rw [← htokens]
    have hsnd : group.assignments.map (fun a => a.2.1) =
        (group.assignments.map fun a => (a.1, a.2.1)).map Prod.snd := by
      rw [List.map_map]
      rfl
    rw [hsnd]
    refine hone.map_on fun p hp q hq heq => ?_
    obtain ⟨a, ha, rfl⟩ := List.mem_map.mp hp
    obtain ⟨b, hb, rfl⟩ := List.mem_map.mp hq
    obtain ⟨x, -, rfl⟩ := List.mem_map.mp ha
    obtain ⟨y, -, rfl⟩ := List.mem_map.mp hb
    exact Prod.ext rfl heq
  have hpositive : tokens.length ≠ 0 := by
    obtain ⟨token, htoken⟩ := List.exists_mem_of_ne_nil _ (h.filled group hgroup)
    have := hlt token htoken
    omega
  refine bind_eq_ok.mpr ⟨(), throwIf_bind_eq_ok.mpr ⟨?_, ?_⟩, rfl⟩
  · push Not
    exact ⟨hpositive, h.filled group hgroup, hpaired⟩
  · exact validateIndices_eq_ok.mpr ⟨fun token htoken => ⟨hlt token htoken, List.not_mem_nil⟩,
      hnodup⟩

theorem valid_of_routeBatch {b : BatchRouterDecision K}
    (h : routeBatch N layerId hiddenStates routerWeights config = .ok b)
    (hrows : hiddenStates.rows ≠ 0) : b.valid := by
  obtain ⟨hinputs, -, hlayer, -⟩ := routeBatch_eq_ok.mp h
  obtain ⟨hlength, hdecided⟩ := routeBatch_decided h
  have hgroups := routeBatch_groups h
  refine ⟨?_, fun d hd => ⟨⟨?_, ?_⟩, ?_⟩, fun group hgroup => ⟨?_, ?_⟩⟩
  · intro hnil
    rw [hnil] at hlength
    exact hrows hlength.symm
  · intro hnil
    have hselected := (hdecided d hd).selected
    rw [hnil] at hselected
    exact (fits_of_validateInputs hinputs).topK_ne_zero hselected.symm
  · rw [(hdecided d hd).selected, (hdecided d hd).scored]
  · rw [(hdecided d hd).layerId, hlayer]
  · exact hgroups.filled group hgroup
  · exact hgroups.paired group hgroup

omit [Field K] [LinearOrder K] in
/-- the groups account for every assignment -/
theorem sum_sizes {tokens : List (RouterDecision K)} {groups : List (ExpertTokenGroup K)}
    (h : GroupsOf tokens groups) (hdecided : ∀ d ∈ tokens, Decided layerId config d) :
    ((groups.map (batchOf layerId)).map ExpertBatch.size).sum =
      (tokens.map fun token => token.selectedExpertIds.length).sum := by
  have hgroups : (groups.flatMap ExpertTokenGroup.assignments).length =
      ((groups.map (batchOf layerId)).map ExpertBatch.size).sum := by
    rw [List.length_flatMap, List.map_map]
    congr 1
    apply List.map_congr_left
    intro group hgroup
    rw [ExpertTokenGroup.assignments, List.length_map, List.length_zip,
      ← h.paired group hgroup, Nat.min_self]
    rfl
  have htokens : (assignments tokens).length =
      (tokens.map fun token => token.selectedExpertIds.length).sum := by
    have hsnd : ((List.range tokens.length).zip tokens).map Prod.snd = tokens :=
      List.map_snd_zip (by rw [List.length_range])
    conv_rhs => rw [← hsnd, List.map_map]
    rw [assignments, List.length_flatMap]
    congr 1
    apply List.map_congr_left
    intro p hp
    have hd := hdecided p.2 (List.of_mem_zip hp).2
    rw [tokenAssignments, List.length_map, List.length_zip, hd.selected, hd.scored, Nat.min_self]
    exact hd.selected.symm
  rw [← hgroups, ← htokens]
  exact h.assigned.length_eq

/-- the loop over the batches: every expert is run once, then every output is added -/
def runBatches (experts : ExpertRuntime K) (layerId : LayerId) (hiddenStates : Grid K)
    (outputWidth : Nat) (batches : List (ExpertBatch K)) : Except StdError (List (Grid K)) :=
  collect (fun batch => experts.execute layerId batch.expertId
    (gatherRows hiddenStates batch.tokenIndices) batch.size outputWidth) batches

/-- all outputs added, batch after batch -/
def combineOutputs (rows outputWidth : Nat) (batches : List (ExpertBatch K))
    (outputs : List (Grid K)) : Grid K :=
  (batches.zip outputs).foldl (fun combined p => scatterAdd combined p.1 p.2)
    (zeros rows outputWidth)

omit [LinearOrder K] in
theorem columns_combineOutputs (rows outputWidth : Nat) (batches : List (ExpertBatch K))
    (outputs : List (Grid K)) :
    (combineOutputs rows outputWidth batches outputs).columns = outputWidth :=
  (foldl_scatterAdd_shape _ (zeros rows outputWidth)).2

/-- a routed batch passes every check of the runtime; what remains are the experts -/
theorem executeBatch_eq_ok :
    executeBatch N experts config layerId hiddenStates routerWeights = .ok r ↔
      routeBatch N layerId hiddenStates routerWeights config = .ok r.routing ∧
      hiddenStates.rows ≠ 0 ∧
      r.batches = r.routing.expertGroups.map (batchOf layerId) ∧
      ∃ first, r.batches.head? = some first ∧
      ∃ outputWidth, experts.outputWidth layerId first.expertId = .ok outputWidth ∧
      runBatches experts layerId hiddenStates outputWidth r.batches = .ok r.expertOutputs ∧
      r.output = combineOutputs hiddenStates.rows outputWidth r.batches r.expertOutputs := by
  have hbatches : ∀ {b : BatchRouterDecision K},
      routeBatch N layerId hiddenStates routerWeights config = .ok b →
      collect (makeBatch layerId b.tokens.length) b.expertGroups =
        .ok (b.expertGroups.map (batchOf layerId)) := by
    intro b hb
    rw [collect_eq_ok, List.forall₂_map_right_iff, List.forall₂_same]
    exact fun group hgroup =>
      makeBatch_of_groups (routeBatch_groups hb) (routeBatch_decided hb).2 hgroup
  have hloop := fun outputWidth => foldlM_collect (ε := StdError) (fun batch : ExpertBatch K =>
    experts.execute layerId batch.expertId (gatherRows hiddenStates batch.tokenIndices) batch.size
      outputWidth) scatterAdd
  unfold executeBatch
  rw [bind_eq_ok]
  constructor
  · rintro ⟨b, hroute, h⟩
    obtain ⟨hvalid, h⟩ := throwIf_bind_eq_ok.mp h
    push Not at hvalid
    obtain ⟨batches, hmake, h⟩ := bind_eq_ok.mp h
    obtain rfl := Except.ok.inj ((hbatches hroute).symm.trans hmake)
    obtain ⟨first, hfirst, h⟩ := bind_eq_ok.mp h
    obtain ⟨-, h⟩ := throwIf_bind_eq_ok.mp h
    obtain ⟨outputWidth, hwidth, h⟩ := bind_eq_ok.mp h
    obtain ⟨⟨outputs, combined⟩, hfold, h⟩ := bind_eq_ok.mp h
    obtain ⟨outputs', hrun, hpair⟩ := bind_eq_ok.mp ((hloop outputWidth _ [] _).symm.trans hfold)
    obtain ⟨rfl, rfl⟩ := Prod.mk.inj (pure_eq_ok.mp hpair)
    obtain rfl := pure_eq_ok.mp h
    refine ⟨hroute, fun hzero => ?_, rfl, first, ?_, outputWidth, hwidth, ?_, rfl⟩
    · have hnil : b.tokens.length = 0 := hvalid.2.trans hzero
      exact hvalid.1.1 (List.eq_nil_of_length_eq_zero hnil)
    · show (b.expertGroups.map (batchOf layerId)).head? = some first
      cases hhead : (b.expertGroups.map (batchOf layerId)).head? with
      | none =>
        rw [hhead] at hfirst
        exact nomatch hfirst
      | some batch =>
        rw [hhead] at hfirst
        exact congrArg some (pure_eq_ok.mp hfirst)
    · exact hrun
  · rintro ⟨hroute, hrows, hmap, first, hfirst, outputWidth, hwidth, hrun, houtput⟩
    have hvalid := valid_of_routeBatch hroute hrows
    have hlength := (routeBatch_decided hroute).1
    refine ⟨r.routing, hroute, throwIf_bind_eq_ok.mpr ⟨?_, ?_⟩⟩
    · push Not
      exact ⟨hvalid, hlength⟩
    · rw [hmap] at hfirst hrun houtput
      refine bind_eq_ok.mpr ⟨_, hbatches hroute, bind_eq_ok.mpr ⟨first, ?_, ?_⟩⟩
      · rw [hfirst]
        rfl
      · refine throwIf_bind_eq_ok.mpr ⟨?_, bind_eq_ok.mpr ⟨outputWidth, hwidth, ?_⟩⟩
        · rw [not_not]
          exact sum_sizes (routeBatch_groups hroute) (routeBatch_decided hroute).2
        · refine bind_eq_ok.mpr ⟨_, (hloop outputWidth _ [] _).trans
            (bind_eq_ok.mpr ⟨_, hrun, rfl⟩), ?_⟩
          show Except.ok (BatchLayerExecutionResult.mk r.routing _ ([] ++ r.expertOutputs)
            (combineOutputs hiddenStates.rows outputWidth _ r.expertOutputs)) = _
          rw [List.nil_append, ← houtput, ← hmap]

/-! ## the mixture -/

/-- the experts work row by row: a batch is refused for its width, or each of its rows goes through
the expert -/
def RowWise (experts : ExpertRuntime K) (f : LayerId → ExpertId → List K → List K)
    (accepts : LayerId → ExpertId → Nat → Nat → Prop) : Prop :=
  ∀ layerId expertId input rows columns out,
    experts.execute layerId expertId input rows columns = .ok out ↔
      (accepts layerId expertId input.columns columns ∧ rows = input.rows) ∧
        out = input.mapRows columns (f layerId expertId)

/-! ## gated experts -/

/-- `weightMap_.require(layerId, expertId)` -/
def requireWeights (weights : LayerId → ExpertId → Option (ExpertMlpWeights K)) (layerId : LayerId)
    (expertId : ExpertId) : Except StdError (ExpertMlpWeights K) :=
  (weights layerId expertId).elim (throw (.out_of_range "expert weight mapping not found")) pure

def mlpRuntime (N : Numerics K) (activation : ActivationType)
    (weights : LayerId → ExpertId → Option (ExpertMlpWeights K)) : ExpertRuntime K where
  outputWidth layerId expertId := do
    let binding ← requireWeights weights layerId expertId
    return binding.downProjection.columns
  execute layerId expertId input rows columns := do
    let binding ← requireWeights weights layerId expertId
    ExpertMlpExecutor.execute N activation input binding rows columns

/-- the rows of an expert that is mapped -/
def mlpRows (N : Numerics K) (activation : ActivationType)
    (weights : LayerId → ExpertId → Option (ExpertMlpWeights K)) (layerId : LayerId)
    (expertId : ExpertId) (row : List K) : List K :=
  (weights layerId expertId).elim [] fun binding => mlpRow N activation binding row

def mlpAccepts (weights : LayerId → ExpertId → Option (ExpertMlpWeights K)) (layerId : LayerId)
    (expertId : ExpertId) (inputWidth outputWidth : Nat) : Prop :=
  ∃ binding, weights layerId expertId = some binding ∧ binding.Accepts inputWidth outputWidth

omit [LinearOrder K] in
theorem rowWise_mlp (N : Numerics K) (activation : ActivationType)
    (weights : LayerId → ExpertId → Option (ExpertMlpWeights K)) :
    RowWise (mlpRuntime N activation weights) (mlpRows N activation weights) (mlpAccepts weights) := by
  intro layerId expertId input rows columns out
  show (requireWeights weights layerId expertId >>= _) = _ ↔ _
  unfold requireWeights mlpRows mlpAccepts
  cases weights layerId expertId with
  | none =>
    constructor
    · intro h
      exact nomatch h
    · rintro ⟨⟨⟨binding, hbinding, -⟩, -⟩, -⟩
      exact nomatch hbinding
  | some binding =>
    show ExpertMlpExecutor.execute N activation input binding rows columns = _ ↔ _
    rw [execute_eq_ok]
    constructor
    · rintro ⟨⟨haccepts, hrows⟩, hout⟩
      exact ⟨⟨⟨binding, rfl, haccepts⟩, hrows⟩, hout⟩
    · rintro ⟨⟨⟨binding', hbinding, haccepts⟩, hrows⟩, hout⟩
      obtain rfl := Option.some.inj hbinding
      exact ⟨⟨haccepts, hrows⟩, hout⟩

/-! ## grouped and naive -/

variable {f : LayerId → ExpertId → List K → List K}
  {accepts : LayerId → ExpertId → Nat → Nat → Prop}

omit [LinearOrder K] in
theorem runBatches_eq_ok (hE : RowWise experts f accepts) {width : Nat}
    {batches : List (ExpertBatch K)} {outputs : List (Grid K)} :
    runBatches experts layerId hiddenStates width batches = .ok outputs ↔
      (∀ batch ∈ batches, accepts layerId batch.expertId hiddenStates.columns width) ∧
      outputs = batches.map fun batch => (gatherRows hiddenStates batch.tokenIndices).mapRows width
        (f layerId batch.expertId) := by
  unfold runBatches
  rw [collect_eq_ok]
  induction batches generalizing outputs with
  | nil =>
    rw [List.forall₂_nil_left_iff]
    exact ⟨fun h => ⟨fun _ hb => (nomatch hb), h⟩, fun h => h.2⟩
  | cons batch batches ih =>
    rw [List.forall₂_cons_left_iff, List.map_cons, List.forall_mem_cons]
    constructor
    · rintro ⟨out, outs, hout, houts, rfl⟩
      obtain ⟨⟨haccepts, -⟩, rfl⟩ := (hE _ _ _ _ _ _).mp hout
      obtain ⟨hall, rfl⟩ := ih.mp houts
      exact ⟨⟨haccepts, hall⟩, rfl⟩
    · rintro ⟨⟨haccepts, hall⟩, rfl⟩
      exact ⟨_, _, (hE _ _ _ _ _ _).mpr ⟨⟨haccepts, rfl⟩, rfl⟩, ih.mpr ⟨hall, rfl⟩, rfl⟩

/-- the grouped computation and the naive one -/
theorem output_of_executeBatch (hE : RowWise experts f accepts)
    (h : executeBatch N experts config layerId hiddenStates routerWeights = .ok r) :
    r.output.rows = hiddenStates.rows ∧
    ∀ t (ht : t < r.routing.tokens.length), ∀ h < r.output.columns,
      r.output.get t h = mixture r.routing.tokens[t] (f layerId) (hiddenStates.row t) h := by
  obtain ⟨hroute, -, hbatches, first, -, width, -, hrun, houtput⟩ := executeBatch_eq_ok.mp h
  obtain ⟨hlength, hdecided⟩ := routeBatch_decided hroute
  have hgroups := routeBatch_groups hroute
  obtain ⟨-, houtputs⟩ := (runBatches_eq_ok hE).mp hrun
  have hassignments : r.batches.flatMap ExpertBatch.assignments =
      r.routing.expertGroups.flatMap ExpertTokenGroup.assignments := by
    rw [hbatches, List.flatMap_map]
    rfl
  have hfst : (r.batches.zip r.expertOutputs).map Prod.fst = r.batches :=
    List.map_fst_zip (by rw [houtputs, List.length_map])
  have hflat : ((r.batches.zip r.expertOutputs).flatMap fun p => p.1.assignments) =
      r.batches.flatMap ExpertBatch.assignments := by
    conv_rhs => rw [← hfst, List.flatMap_map]
  have hps : ∀ p ∈ r.batches.zip r.expertOutputs,
      p.1.tokenIndices.length = p.1.routingWeights.length ∧
      (∀ token ∈ p.1.tokenIndices, token < (zeros (K := K) hiddenStates.rows width).rows) ∧
      p.2 = (gatherRows hiddenStates p.1.tokenIndices).mapRows
        (zeros (K := K) hiddenStates.rows width).columns (f layerId p.1.expertId) := by
    intro p hp
    rw [houtputs, ← List.map_prod_left_eq_zip] at hp
    obtain ⟨batch, hbatch, rfl⟩ := List.mem_map.mp hp
    rw [hbatches] at hbatch
    obtain ⟨group, hgroup, rfl⟩ := List.mem_map.mp hbatch
    exact ⟨hgroups.paired group hgroup,
      fun token htoken => hlength ▸ hgroups.token_lt hgroup htoken, rfl⟩
  obtain ⟨hrows, hcolumns⟩ := foldl_scatterAdd_shape (r.batches.zip r.expertOutputs)
    (zeros (K := K) hiddenStates.rows width)
  have hget := foldl_scatterAdd _ hps
  rw [combineOutputs] at houtput
  rw [← houtput] at hrows hcolumns hget
  refine ⟨hrows, fun t ht h hh => ?_⟩
  rw [hget t h (hcolumns ▸ hh), hflat, hassignments,
    (hgroups.assigned.map _).sum_eq, sum_contributions ht]
  have hzero : (zeros (K := K) hiddenStates.rows width).get t h = 0 :=
    Grid.get_generate _ (hlength ▸ ht) (lt_of_lt_of_eq hh hcolumns)
  rw [hzero, zero_add]

/-- the naive mixture, and how the result came about -/
structure Mixes (f : ExpertId → List K → List K) (hiddenStates : Grid K)
    (r : BatchLayerExecutionResult K) : Prop where
  rows : r.output.rows = hiddenStates.rows
  tokens : r.routing.tokens.length = hiddenStates.rows
  output : ∀ t (ht : t < r.routing.tokens.length), ∀ h < r.output.columns,
    r.output.get t h = mixture r.routing.tokens[t] f (hiddenStates.row t) h
  /-- no expert has two batches -/
  experts : (r.batches.map ExpertBatch.expertId).Nodup
  /-- the batches carry out the assignments of the tokens, each of them once -/
  once : (r.batches.flatMap ExpertBatch.assignments).Perm (assignments r.routing.tokens)
  distinct : ((assignments r.routing.tokens).map fun a => (a.1, a.2.1)).Nodup

/-- Grouped execution is the naive mixture, and nothing but an expert can make it fail. -/
theorem executeBatch_mixes (hE : RowWise experts f accepts) :
    (∀ r, executeBatch N experts config layerId hiddenStates routerWeights = .ok r →
      routeBatch N layerId hiddenStates routerWeights config = .ok r.routing ∧
      Mixes (f layerId) hiddenStates r) ∧
    ∀ routing width, routeBatch N layerId hiddenStates routerWeights config = .ok routing →
      hiddenStates.rows ≠ 0 →
      (∀ group ∈ routing.expertGroups, experts.outputWidth layerId group.expertId = .ok width ∧
        accepts layerId group.expertId hiddenStates.columns width) →
      ∃ r, executeBatch N experts config layerId hiddenStates routerWeights = .ok r := by
  constructor
  · intro r h
    obtain ⟨hroute, -, hbatches, -⟩ := executeBatch_eq_ok.mp h
    obtain ⟨hlength, hdecided⟩ := routeBatch_decided hroute
    obtain ⟨hrows, houtput⟩ := output_of_executeBatch hE h
    have hgroups := routeBatch_groups hroute
    refine ⟨hroute, hrows, hlength, houtput, ?_, ?_, nodup_assignments hdecided⟩
    · rw [hbatches, List.map_map]
      exact hgroups.nodup
    · rw [hbatches, List.flatMap_map]
      exact hgroups.assigned
  · intro routing width hroute hrows haccepts
    have hne : routing.expertGroups ≠ [] := by
      intro hnil
      have hassigned := (routeBatch_groups hroute).assigned
      obtain ⟨hinputs, -⟩ := routeBatch_eq_ok.mp hroute
      obtain ⟨hlength, hdecided⟩ := routeBatch_decided hroute
      have hsizes := @sum_sizes K config layerId _ _ (routeBatch_groups hroute) hdecided
      rw [hnil] at hsizes
      obtain ⟨d, hd⟩ := List.exists_mem_of_length_pos
        (hlength ▸ Nat.pos_of_ne_zero hrows : 0 < routing.tokens.length)
      have hzero := List.sum_eq_zero_iff_forall_eq_nat.mp hsizes.symm _
        (List.mem_map.mpr ⟨d, hd, rfl⟩)
      rw [(hdecided d hd).selected] at hzero
      exact (fits_of_validateInputs hinputs).topK_ne_zero hzero
    obtain ⟨group, groups, hcons⟩ := List.exists_cons_of_ne_nil hne
    have hall : ∀ batch ∈ routing.expertGroups.map (batchOf layerId),
        accepts layerId batch.expertId hiddenStates.columns width := by
      intro batch hbatch
      obtain ⟨g, hg, rfl⟩ := List.mem_map.mp hbatch
      exact (haccepts g hg).2
    have hrun := (runBatches_eq_ok hE).mpr ⟨hall, rfl⟩
    refine ⟨⟨routing, routing.expertGroups.map (batchOf layerId), _,
      combineOutputs hiddenStates.rows width _ _⟩,
      executeBatch_eq_ok.mpr ⟨hroute, hrows, rfl, batchOf layerId group, ?_, width,
        (haccepts group (hcons ▸ List.mem_cons_self)).1, hrun, rfl⟩⟩
    rw [hcons]
    rfl

/-! A layer of three experts of width one, and two tokens that share one of them. -/

def smallNumerics : Numerics ℚ where
  exp x := 1 + x * x
  sqrt x := x
  cos _ := 1
  sin _ := 0
  erf x := x
  pow base _ := base
  ofFloat x := x.bits.toNat

def smallConfig : RouterConfig := { expertCount := 3, topK := 2, normalization := .None }

def smallWeights (_ : LayerId) (expertId : ExpertId) : Option (ExpertMlpWeights ℚ) :=
  some ⟨.fp32 ⟨1, 1, [1], rfl⟩, .fp32 ⟨1, 1, [2], rfl⟩, .fp32 ⟨1, 1, [expertId + 1], rfl⟩⟩

def smallLayer : Except StdError (BatchLayerExecutionResult ℚ) :=
  executeBatch smallNumerics (mlpRuntime smallNumerics .SiLU smallWeights) smallConfig 0
    ⟨2, 1, [1, -1], rfl⟩ ⟨1, 3, [1, -1, 3], rfl⟩

theorem smallLayer_mixes :
    smallLayer.toOption.map (fun r => r.output.values) = some [20 / 3, 2 / 3] ∧
    ∀ r, smallLayer = .ok r →
      Mixes (mlpRows smallNumerics .SiLU smallWeights 0) ⟨2, 1, [1, -1], rfl⟩ r := by
  refine ⟨by decide +kernel, fun r hr => ?_⟩
  exact ((executeBatch_mixes (rowWise_mlp smallNumerics .SiLU smallWeights)).1 r hr).2

end HyperMoE.Runtime
