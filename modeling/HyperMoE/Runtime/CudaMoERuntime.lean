import HyperMoE.Experts.CudaExpertExecutor
import HyperMoE.Lib.Simulation
import HyperMoE.Router.CudaRouterBackend
import HyperMoE.Runtime.MoERuntime

/-!
# A mixture layer on the device

`MoERuntime.cpp` and `CudaRouterBackend.cpp` with the kernels of this repository: the logits by
cuBLAS, the best experts by a kernel, and for each expert its rows gathered, run and added.

* `RouterRun`, `BatchRun`, `LayerRun`   what the device is free in;
* `CudaRouterBackend.routeBatch`        the routing;
* `CudaMoERuntime.executeBatch`         the layer;
* `routeBatch_of_host`, `executeBatch_of_host`   what the host answers, the device answers.
-/

namespace HyperMoE.Router

open Lib Lib.Outcome Tensor Models Backend
open CudaTensorBackend (Order allocateTensor checkedProduct intMax)

variable {K : Type}

/-- what new arrays hold, and the order of the tokens -/
structure RouterRun (K : Type) where
  logits : Nat → K
  expertIds : Nat → ExpertId
  scores : Nat → Extended K
  threads : Order
  deriving Inhabited

/-- the buffers of the selection, as they were allocated -/
def RouterRun.arrays (run : RouterRun K) (tokens topK : Nat) : SelectionArrays K where
  selectedIds := Grid.generate tokens topK fun token rank => run.expertIds (token * topK + rank)
  selectedScores := Grid.generate tokens topK fun token rank => run.scores (token * topK + rank)

variable [Field K] [LinearOrder K]

def CudaRouterBackend.routeBatch (cublas : Cublas K) (N : Numerics K) (run : RouterRun K)
    (layerId : LayerId) (hiddenStates routerWeights : Grid K) (config : RouterConfig) :
    Except StdError (BatchRouterDecision K) := do
  (config.validate.exec true).1
  throwIf (config.expertCount = 0 ∨ config.topK = 0 ∨ config.topK > config.expertCount ∨
      routerWeights.rows ≠ hiddenStates.columns ∨
      routerWeights.columns ≠ config.expertCount.toNat ∨ config.expertCount > 0xffffffff)
    (.invalid_argument "CUDA router tensor metadata is incompatible")
  let tokens := hiddenStates.rows
  let _ ← checkedProduct tokens config.topK.toNat "CUDA router"
  let logits ← CudaTensorBackend.matmul cublas hiddenStates routerWeights
    (allocateTensor run.logits tokens config.expertCount.toNat)
  deviceRoute N layerId logits config (run.threads.threads tokens)
    (run.arrays tokens config.topK.toNat)

variable {cublas : Cublas K} {N : Numerics K} {layerId : LayerId} {hiddenStates routerWeights : Grid K}
  {config : RouterConfig} {b : BatchRouterDecision K}

omit [LinearOrder K] in
theorem matmul_batchLogits (hrows : routerWeights.rows = hiddenStates.columns)
    (hcolumns : routerWeights.columns = config.expertCount.toNat) :
    matmul hiddenStates routerWeights hiddenStates.rows config.expertCount.toNat =
      .ok (batchLogits hiddenStates routerWeights config) := by
  refine throwIf_bind_eq_ok.mpr ⟨?_, congrArg Except.ok ?_⟩
  · push Not
    exact ⟨hrows, rfl, hcolumns.symm⟩
  · refine Grid.ext_get rfl hcolumns fun token htoken expert hexpert => ?_
    have htoken' : token < hiddenStates.rows := htoken
    have hexpert' : expert < routerWeights.columns := hexpert
    rw [Tensor.product, Grid.get_generate _ htoken' hexpert', batchLogits,
      Grid.get_generate _ htoken' (hcolumns ▸ hexpert'), expertScores,
      Grid.getD_map_range _ (hcolumns ▸ hexpert')]
    refine Finset.sum_congr rfl fun index hindex => ?_
    rw [Grid.getD_row (Finset.mem_range.mp hindex)]

theorem routeBatch_of_host (hcublas : cublas.Documented) (run : RouterRun K)
    (h : routeBatch N layerId hiddenStates routerWeights config = .ok b)
    (hhidden : hiddenStates.rows * hiddenStates.columns < 2 ^ 31)
    (hlogits : hiddenStates.rows * config.expertCount.toNat < 2 ^ 31)
    (hpos : 0 < hiddenStates.rows) :
    CudaRouterBackend.routeBatch cublas N run layerId hiddenStates routerWeights config = .ok b := by
  obtain ⟨hinputs, hroute⟩ := (routeBatch_iff_routeLogits N layerId hiddenStates routerWeights
    config b).mp h
  obtain ⟨u, hvalid, hshape⟩ := bind_eq_ok.mp hinputs
  have hshape' := throwIf_eq_ok.mp hshape
  push Not at hshape'
  have hconfig := configured_of_validate hvalid
  have hids := returns_validate_ids config true u hvalid
  obtain ⟨hzero, hle⟩ := returns_validate config true u hvalid
  have hexperts : config.expertCount.toNat ≠ 0 :=
    (Nat.lt_of_lt_of_le hconfig.topK_pos hconfig.topK_le).ne'
  have hrows : hiddenStates.rows ≤ hiddenStates.rows * config.expertCount.toNat :=
    Nat.le_mul_of_pos_right _ (Nat.pos_of_ne_zero hexperts)
  have hselected : hiddenStates.rows * config.topK.toNat ≤
      hiddenStates.rows * config.expertCount.toNat := Nat.mul_le_mul_left _ hconfig.topK_le
  have hmatmul := matmul_batchLogits hshape'.1.symm hshape'.2
  have hscheduled := run.threads.scheduled (show hiddenStates.rows < 2 ^ 31 by omega)
  have hlaunchable : Launchable (batchLogits hiddenStates routerWeights config) config
      (run.threads.threads hiddenStates.rows) (run.arrays hiddenStates.rows config.topK.toNat) :=
    ⟨hconfig, rfl, ⟨rfl, rfl, rfl, rfl⟩, hscheduled.nodup, fun token htoken => hscheduled.mem htoken⟩
  obtain ⟨out, hlaunch, hshaped, hrouted⟩ := routed_of_launch N
    hlaunchable
  refine bind_eq_ok.mpr ⟨u, hvalid, throwIf_bind_eq_ok.mpr ⟨?_, bind_eq_ok.mpr
    ⟨_, CudaTensorBackend.checkedProduct_eq (by omega), bind_eq_ok.mpr
      ⟨batchLogits hiddenStates routerWeights config, ?_, ?_⟩⟩⟩⟩
  · push Not
    exact ⟨fun h0 => hexperts (congrArg UInt64.toNat h0), hzero, UInt64.not_lt.mpr hle,
      hshape'.1.symm, hshape'.2, UInt64.not_lt.mpr hids⟩
  · refine CudaTensorBackend.matmul_of_host hcublas hmatmul ?_ ?_ ?_
    · unfold intMax
      omega
    · have hinner := Nat.le_mul_of_pos_left hiddenStates.columns hpos
      unfold intMax
      omega
    · have hcount := Nat.le_mul_of_pos_left config.expertCount.toNat hpos
      rw [hshape'.2]
      unfold intMax
      omega
  · exact deviceRoute_accepted hconfig (by
      show hiddenStates.rows * config.topK.toNat < 2 ^ 64
      omega) hshaped hrouted hlaunch hroute

end HyperMoE.Router

namespace HyperMoE.Runtime

open Lib Lib.Outcome Tensor Models Router Experts Backend
open CudaTensorBackend (Order allocateTensor intMax)

variable {K : Type}

/-- one expert of the layer: new tensors, and the orders of the launches -/
structure BatchRun (K : Type) where
  input : Nat → K
  output : Nat → K
  gather : Order
  scatter : Order
  expert : ExpertRun K
  deriving Inhabited

structure LayerRun (K : Type) where
  router : RouterRun K
  output : Nat → K
  zero : Order
  batch : ExpertId → BatchRun K
  deriving Inhabited

variable [Field K]

namespace CudaMoERuntime

/-- the round of an expert: its output, and the sum so far -/
def executeExpert (cublas : Cublas K) (N : Numerics K) (mode : Int8GemmMode) (run : BatchRun K)
    (activation : ActivationType) (weights : LayerId → ExpertId → Option (ExpertMlpWeights K))
    (layerId : LayerId) (hiddenStates : Grid K) (outputWidth : Nat)
    (s : List (Grid K) × Grid K) (batch : ExpertBatch K) :
    Except StdError (List (Grid K) × Grid K) := do
  let binding ← requireWeights weights layerId batch.expertId
  let expertInput ← CudaTensorBackend.gatherRows run.gather hiddenStates batch.tokenIndices
    (allocateTensor run.input batch.size hiddenStates.columns)
  let expertOutput ← CudaExpertExecutor.execute cublas N mode run.expert activation expertInput
    binding (allocateTensor run.output batch.size outputWidth)
  let output ← CudaTensorBackend.scatterAddRows run.scatter expertOutput batch.tokenIndices
    batch.routingWeights s.2
  return (s.1 ++ [expertOutput], output)

variable [LinearOrder K]

def executeBatch (cublas : Cublas K) (N : Numerics K) (mode : Int8GemmMode) (run : LayerRun K)
    (activation : ActivationType) (weights : LayerId → ExpertId → Option (ExpertMlpWeights K))
    (config : RouterConfig) (layerId : LayerId) (hiddenStates routerWeights : Grid K) :
    Except StdError (BatchLayerExecutionResult K) := do
  let decision ← CudaRouterBackend.routeBatch cublas N run.router layerId hiddenStates routerWeights
    config
  throwIf (¬ decision.valid ∨ decision.tokens.length ≠ hiddenStates.rows)
    (.runtime_error "router returned an invalid batch decision")
  let batches ← collect (makeBatch layerId decision.tokens.length) decision.expertGroups
  let first ← batches.head?.elim (throw (.runtime_error "router produced no expert batches")) pure
  throwIf ((batches.map ExpertBatch.size).sum ≠
      (decision.tokens.map fun token => token.selectedExpertIds.length).sum)
    (.runtime_error "router expert groups omit token assignments")
  let binding ← requireWeights weights layerId first.expertId
  let outputWidth := binding.downProjection.columns
  let output ← CudaTensorBackend.zero run.zero
    (allocateTensor run.output hiddenStates.rows outputWidth)
  let (expertOutputs, output) ← batches.foldlM (fun s batch => executeExpert cublas N mode
    (run.batch batch.expertId) activation weights layerId hiddenStates outputWidth s batch)
    ([], output)
  return { routing := decision, batches, expertOutputs, output }

/-! ## the round of an expert -/

/-- what the launches of a layer can count, for every expert that is mapped -/
structure Limits (weights : LayerId → ExpertId → Option (ExpertMlpWeights K)) (config : RouterConfig)
    (layerId : LayerId) (rows width : Nat) : Prop where
  hidden : rows * width < 2 ^ 31
  logits : rows * config.expertCount.toNat < 2 ^ 31
  experts : ∀ expertId binding, weights layerId expertId = some binding → binding.Launches rows

omit [Field K] [LinearOrder K] in
theorem Limits.mono {weights : LayerId → ExpertId → Option (ExpertMlpWeights K)}
    {config : RouterConfig} {layerId : LayerId} {rows width r : Nat}
    (h : Limits weights config layerId rows width) (hpos : 0 < r) (hle : r ≤ rows) :
    Limits weights config layerId r width :=
  ⟨(Nat.mul_le_mul_right _ hle).trans_lt h.hidden, (Nat.mul_le_mul_right _ hle).trans_lt h.logits,
    fun expertId binding hbinding => (h.experts expertId binding hbinding).mono hpos hle⟩

section
variable {cublas : Cublas K} {N : Numerics K} {mode : Int8GemmMode} {activation : ActivationType}
  {weights : LayerId → ExpertId → Option (ExpertMlpWeights K)} {config : RouterConfig}
  {layerId : LayerId} {hiddenStates routerWeights : Grid K} {outputWidth : Nat}

omit [LinearOrder K] in
theorem scatterAddRows_of_host {order : Order} {combined values : Grid K} {batch : ExpertBatch K}
    (hne : batch.tokenIndices ≠ []) (hpaired : batch.tokenIndices.length = batch.routingWeights.length)
    (htokens : ∀ token ∈ batch.tokenIndices, token < combined.rows) (hrows : values.rows = batch.size)
    (hcolumns : values.columns = combined.columns) (hlimit : combined.rows < 2 ^ 31)
    (hcount : batch.size * values.columns < 2 ^ 31) :
    CudaTensorBackend.scatterAddRows order values batch.tokenIndices batch.routingWeights combined =
      .ok (scatterAdd combined batch values) := by
  rw [CudaTensorBackend.scatterAddRows_eq hne hpaired hrows hcolumns htokens (by omega) hcount]
  refine congrArg Except.ok (Grid.ext_get (scatterAdd_rows combined batch values).symm
    (scatterAdd_columns combined batch values).symm fun row hrow column hcolumn => ?_)
  have hrow' : row < combined.rows := hrow
  have hcolumn' : column < combined.columns := hcolumn
  have htoken : ∀ i ∈ List.range batch.size, batch.tokenIndices.getD i 0 < combined.rows := by
    intro i hi
    have hlt : i < batch.tokenIndices.length := List.mem_range.mp hi
    rw [List.getD_eq_getElem _ _ hlt]
    exact htokens _ (List.getElem_mem hlt)
  rw [Grid.get_generate _ hrow' hcolumn']
  refine Eq.trans ?_ (foldl_addRow values (fun i => batch.tokenIndices.getD i 0)
    (fun i => batch.routingWeights.getD i 0) (List.range batch.size) htoken row hcolumn').symm
  refine congrArg _ (Finset.sum_congr rfl fun i _ => ?_)
  rw [mul_comm]

omit [Field K] [LinearOrder K] in
/-- a batch has one row at least, and no more rows than there are tokens -/
theorem size_of_makeBatch {tokenCount : Nat} {group : ExpertTokenGroup K} {batch : ExpertBatch K}
    (h : makeBatch layerId tokenCount group = .ok batch) :
    (batch.tokenIndices ≠ [] ∧ batch.tokenIndices.length = batch.routingWeights.length) ∧
      (∀ token ∈ batch.tokenIndices, token < tokenCount) ∧ batch.size ≤ tokenCount := by
  obtain ⟨u, hvalid, hbatch⟩ := bind_eq_ok.mp h
  obtain rfl := pure_eq_ok.mp hbatch
  obtain ⟨hshape, hindices⟩ := throwIf_bind_eq_ok.mp hvalid
  obtain ⟨htokens, hnodup⟩ := validateIndices_eq_ok.mp hindices
  push Not at hshape
  refine ⟨⟨hshape.2.1, hshape.2.2⟩, fun token htoken => (htokens token htoken).1, ?_⟩
  have hsubset : group.tokenIndices ⊆ List.range tokenCount := fun token htoken =>
    List.mem_range.mpr (htokens token htoken).1
  exact (hnodup.subperm hsubset).length_le.trans List.length_range.le

omit [Field K] [LinearOrder K] in
theorem requireWeights_eq_ok {expertId : ExpertId} {binding : ExpertMlpWeights K} :
    requireWeights weights layerId expertId = .ok binding ↔
      weights layerId expertId = some binding := by
  unfold requireWeights
  cases weights layerId expertId with
  | none => exact ⟨fun h => (nomatch h), fun h => (nomatch h)⟩
  | some b => exact pure_eq_ok.trans Option.some_inj.symm

omit [LinearOrder K] in
/-- the round of the host, taken over by the device -/
theorem executeExpert_of_host (hcublas : cublas.Documented) (run : BatchRun K)
    {s t : List (Grid K) × Grid K} {batch : ExpertBatch K} {group : ExpertTokenGroup K}
    (hbatch : makeBatch layerId hiddenStates.rows group = .ok batch)
    (hlimits : Limits weights config layerId hiddenStates.rows hiddenStates.columns)
    (hshape : s.2.rows = hiddenStates.rows ∧ s.2.columns = outputWidth)
    (h : (do
      let expertOutput ← (mlpRuntime N activation weights).execute layerId batch.expertId
        (gatherRows hiddenStates batch.tokenIndices) batch.size outputWidth
      return (s.1 ++ [expertOutput], scatterAdd s.2 batch expertOutput) :
        Except StdError (List (Grid K) × Grid K)) = .ok t) :
    executeExpert cublas N mode run activation weights layerId hiddenStates outputWidth s batch =
      .ok t ∧ t.2.rows = hiddenStates.rows ∧ t.2.columns = outputWidth := by
  obtain ⟨⟨hne, hpaired⟩, htokens, hle⟩ := size_of_makeBatch hbatch
  obtain ⟨expertOutput, hexpert, h⟩ := bind_eq_ok.mp h
  obtain ⟨binding, hbinding, hexecute⟩ := bind_eq_ok.mp hexpert
  obtain rfl := pure_eq_ok.mp h
  have hmapped := requireWeights_eq_ok.mp hbinding
  have hpos : 0 < batch.size := List.length_pos_iff.mpr hne
  have hlaunches := (hlimits.experts _ _ hmapped).mono hpos hle
  obtain ⟨⟨haccepts, -⟩, hout⟩ := execute_eq_ok.mp hexecute
  have hhidden := hlimits.hidden
  have hrows : hiddenStates.rows < 2 ^ 28 := by
    have houtput := (hlimits.experts _ _ hmapped).gate.output
    have hcolumns := (hlimits.experts _ _ hmapped).gate.columns_pos
    have := Nat.le_mul_of_pos_right hiddenStates.rows hcolumns
    omega
  have hgathered : batch.tokenIndices.length * hiddenStates.columns < 2 ^ 31 :=
    lt_of_le_of_lt (Nat.mul_le_mul_right _ hle) hhidden
  have houtputRows : expertOutput.rows = batch.size := by
    rw [hout]
    rfl
  have houtputColumns : expertOutput.columns = outputWidth := by
    rw [hout]
    rfl
  refine ⟨bind_eq_ok.mpr ⟨binding, hbinding, bind_eq_ok.mpr
    ⟨gatherRows hiddenStates batch.tokenIndices, ?_, bind_eq_ok.mpr ⟨expertOutput, ?_,
      bind_eq_ok.mpr ⟨scatterAdd s.2 batch expertOutput, ?_, rfl⟩⟩⟩⟩, ?_, ?_⟩
  · exact CudaTensorBackend.gatherRows_eq hne ⟨rfl, rfl⟩ htokens (by omega) hgathered
  · exact CudaExpertExecutor.execute_of_host hcublas _ hexecute hlaunches
  · refine scatterAddRows_of_host hne hpaired ?_ houtputRows ?_ ?_ ?_
    · rw [hshape.1]
      exact htokens
    · rw [houtputColumns, hshape.2]
    · omega
    · have hcount : hiddenStates.rows * binding.downProjection.columns < 2 ^ 28 :=
        (hlimits.experts _ _ hmapped).down.output
      have hbatchCount : batch.size * outputWidth ≤ hiddenStates.rows * outputWidth :=
        Nat.mul_le_mul_right _ hle
      rw [houtputColumns]
      rw [haccepts.output] at hcount
      omega
  · rw [scatterAdd_rows, hshape.1]
  · rw [scatterAdd_columns, hshape.2]

omit [LinearOrder K] in
theorem zero_zeros {order : Order} {memory : Nat → K} {rows columns : Nat}
    (hcount : rows * columns < 2 ^ 31) :
    CudaTensorBackend.zero order (allocateTensor memory rows columns) = .ok (zeros rows columns) :=
  CudaTensorBackend.zero_eq hcount

/-! ## the layer -/

variable {r : BatchLayerExecutionResult K}

theorem executeBatch_of_host (hcublas : cublas.Documented) (run : LayerRun K)
    (hlimits : Limits weights config layerId hiddenStates.rows hiddenStates.columns)
    (h : Runtime.executeBatch N (mlpRuntime N activation weights) config layerId hiddenStates
      routerWeights = .ok r) :
    executeBatch cublas N mode run activation weights config layerId hiddenStates routerWeights =
      .ok r := by
  obtain ⟨-, hrows, -⟩ := executeBatch_eq_ok.mp h
  unfold Runtime.executeBatch at h
  obtain ⟨decision, hroute, h⟩ := bind_eq_ok.mp h
  obtain ⟨hvalid, h⟩ := throwIf_bind_eq_ok.mp h
  obtain ⟨batches, hbatches, h⟩ := bind_eq_ok.mp h
  obtain ⟨first, hfirst, h⟩ := bind_eq_ok.mp h
  obtain ⟨hcount, h⟩ := throwIf_bind_eq_ok.mp h
  obtain ⟨outputWidth, hwidth, h⟩ := bind_eq_ok.mp h
  obtain ⟨binding, hbinding, hpure⟩ := bind_eq_ok.mp hwidth
  obtain rfl := pure_eq_ok.mp hpure
  obtain ⟨⟨expertOutputs, output⟩, hloop, h⟩ := bind_eq_ok.mp h
  have hlength : decision.tokens.length = hiddenStates.rows := by
    push Not at hvalid
    exact hvalid.2
  have hgroup : ∀ batch ∈ batches, ∃ group : ExpertTokenGroup K,
      makeBatch layerId hiddenStates.rows group = .ok batch := by
    intro batch hbatch
    obtain ⟨group, -, hmake⟩ := exists_of_mem_collect hbatches hbatch
    exact ⟨group, hlength ▸ hmake⟩
  have hmapped := requireWeights_eq_ok.mp hbinding
  have houtput : hiddenStates.rows * binding.downProjection.columns < 2 ^ 28 :=
    (hlimits.experts _ _ hmapped).down.output
  refine bind_eq_ok.mpr ⟨decision, Router.routeBatch_of_host hcublas run.router hroute
    hlimits.hidden hlimits.logits (Nat.pos_of_ne_zero hrows), throwIf_bind_eq_ok.mpr ⟨hvalid,
      bind_eq_ok.mpr ⟨batches, hbatches, bind_eq_ok.mpr ⟨first, hfirst, throwIf_bind_eq_ok.mpr
        ⟨hcount, bind_eq_ok.mpr ⟨binding, hbinding, bind_eq_ok.mpr
          ⟨zeros hiddenStates.rows binding.downProjection.columns, ?_, bind_eq_ok.mpr
            ⟨(expertOutputs, output), ?_, h⟩⟩⟩⟩⟩⟩⟩⟩
  · exact zero_zeros (by omega)
  · refine Fallible.foldlM_of_rounds (fun s : List (Grid K) × Grid K =>
      s.2.rows = hiddenStates.rows ∧ s.2.columns = binding.downProjection.columns) ?_ ⟨rfl, rfl⟩ hloop
    rintro batch hbatch s t hshape hround
    obtain ⟨group, hmake⟩ := hgroup batch hbatch
    exact executeExpert_of_host hcublas _ hmake hlimits hshape hround

end

end CudaMoERuntime

end HyperMoE.Runtime
