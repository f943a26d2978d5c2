import HyperMoE.Generation.KVCacheManager
import HyperMoE.Transformer.TransformerBlock

/-!
# A session, and its steps

`GenerationState.cpp`, `ForwardState.cpp`, `InferenceSession.cpp`, `Decoder.cpp`: what a session
knows about its tokens, the result of its last pass, its cache, and the two operations on it.

* `GenerationState`          the tokens, the position and the reason to stop;
* `GenerationModel`          a model, which changes the cache that it is given;
* `InferenceSession`         the state, the last pass and the cache;
* `Decoder.prefill`, `Decoder.decode`   a pass over the prompt, and over one token more.
-/

namespace HyperMoE.Generation

open Lib Lib.Fallible

abbrev TokenId := Nat

/-- `std::numeric_limits<std::uint64_t>::max()` -/
def maxPosition : Nat := 2 ^ 64 - 1

/-! ## GenerationState -/

inductive GenerationStopReason where
  | None
  | MaximumTokens
  | StopToken
  deriving DecidableEq, Repr

structure GenerationState where
  maximumNewTokens : Nat
  stopTokenIds : List TokenId
  promptTokens : List TokenId := []
  generatedTokens : List TokenId := []
  currentTokenPosition : Nat := 0
  active : Bool := false
  stopReason : GenerationStopReason := .None
  deriving DecidableEq, Repr

namespace GenerationState

def finished (s : GenerationState) : Prop := s.stopReason ≠ .None

instance (s : GenerationState) : Decidable s.finished :=
  inferInstanceAs (Decidable (s.stopReason ≠ .None))

def make (maximumNewTokens : Nat) (stopTokenIds : List TokenId) : Except Exn GenerationState :=
  if maximumNewTokens = 0 then
    .error (.invalidArgument "generation requires at least one output token")
  else .ok { maximumNewTokens, stopTokenIds }

def begin (promptTokens : List TokenId) : Fallible Exn GenerationState Unit := do
  let s ← read
  throwIf (s.active = true ∨ promptTokens = [])
    (.logicError "generation state requires one nonempty prompt")
  update fun s => { s with
    promptTokens
    generatedTokens := []
    currentTokenPosition := 0
    stopReason := .None
    active := true }

def advancePosition (tokenCount : Nat) : Fallible Exn GenerationState Unit := do
  let s ← read
  throwIf (s.active = false ∨ s.finished ∨ tokenCount = 0 ∨
      tokenCount > maxPosition - s.currentTokenPosition)
    (.logicError "generation token position cannot advance")
  update fun s => { s with currentTokenPosition := s.currentTokenPosition + tokenCount }

def finish (reason : GenerationStopReason) : Fallible Exn GenerationState Unit := do
  let s ← read
  throwIf (s.active = false ∨ s.finished ∨ reason = .None)
    (.logicError "generation stop reason is invalid")
  update fun s => { s with stopReason := reason }

def appendGenerated (tokenId : TokenId) : Fallible Exn GenerationState Bool := do
  let s ← read
  throwIf (s.active = false ∨ s.finished ∨ s.generatedTokens.length ≥ s.maximumNewTokens)
    (.logicError "generation state cannot accept another token")
  update fun s => { s with generatedTokens := s.generatedTokens ++ [tokenId] }
  let s ← read
  if tokenId ∈ s.stopTokenIds then finish .StopToken
  else if s.generatedTokens.length = s.maximumNewTokens then finish .MaximumTokens
  else pure ()
  let s ← read
  return decide s.finished

end GenerationState

/-! ## a pass, and the last one -/

/-- a tensor, by what is asked of it -/
structure PassTensor (K : Type) where
  valid : Bool
  dimensions : List Nat
  fp32 : Bool
  contiguous : Bool
  values : List K

def PassTensor.empty (K : Type) : PassTensor K := ⟨false, [], true, true, []⟩

structure ForwardPass (K : Type) where
  hiddenStates : PassTensor K
  logits : PassTensor K
  finalLayer : LayerId
  routing : List (Router.RouterDecision K)

structure ForwardState (K : Type) where
  hiddenStates : PassTensor K := .empty K
  logits : PassTensor K := .empty K
  currentLayer : LayerId := 0
  tokenPosition : Nat := 0
  inputTokenCount : Nat := 0
  cachedTokenCount : Nat := 0
  routing : List (Router.RouterDecision K) := []

namespace ForwardState

variable {K : Type}

def valid (s : ForwardState K) : Bool := s.hiddenStates.valid && s.logits.valid

def updated (pass : ForwardPass K) (tokenPosition cachedTokenCount : Nat) :
    Except Exn (ForwardState K) :=
  let inputTokens := pass.hiddenStates.dimensions.getD 0 0
  if pass.hiddenStates.valid = false ∨ pass.logits.valid = false ∨
      pass.hiddenStates.dimensions.length ≠ 2 ∨ pass.logits.dimensions.length ≠ 2 ∨
      inputTokens ≠ pass.logits.dimensions.getD 0 0 ∨ pass.routing.length ≠ inputTokens ∨
      inputTokens > maxPosition - tokenPosition then
    .error (.invalidArgument "forward pass state is inconsistent")
  else if ∃ decision ∈ pass.routing, ¬ decision.valid ∨ decision.layerId ≠ pass.finalLayer then
    .error (.invalidArgument "forward pass routing metadata is invalid")
  else .ok {
    hiddenStates := pass.hiddenStates
    logits := pass.logits
    currentLayer := pass.finalLayer
    tokenPosition
    inputTokenCount := inputTokens
    cachedTokenCount
    routing := pass.routing }

end ForwardState

/-! ## the session -/

structure GenerationModel (C K : Type) where
  vocabularySize : Nat
  hiddenDimension : Nat
  layerCount : Nat
  keyValueHeads : Nat
  headDimension : Nat
  device : Device
  materializeHost : PassTensor K → Except Exn (List K)
  forward : Transformer.InferenceContext K → List TokenId → Fallible Exn C (ForwardPass K)

/-- the model and the manager of a session are those it was made with -/
structure InferenceSession (C K : Type) where
  id : KVCacheSessionId
  kvCache : C
  generationState : GenerationState
  forwardState : ForwardState K := {}

namespace InferenceSession

variable {C K : Type} [KVCacheBase C]

def make (model : GenerationModel C K) (maximumNewTokens : Nat) (stopTokenIds : List TokenId)
    (device : Device) : Fallible Exn (KVCacheManager C) (InferenceSession C K) := do
  let generationState ← settle (GenerationState.make maximumNewTokens stopTokenIds)
  let m ← read
  throwIf (model.layerCount ≠ m.layerCount ∨ model.keyValueHeads ≠ m.keyValueHeads ∨
      model.headDimension ≠ m.headDimension ∨ model.device ≠ device ∨ model.device ≠ m.device ∨
      maximumNewTokens > m.maximumSequenceLength)
    (.invalidArgument "inference session model and KV cache manager are incompatible")
  let allocation ← KVCacheManager.allocateSession
  return { id := allocation.1, kvCache := allocation.2, generationState }

def onGeneration {α : Type} (x : Fallible Exn GenerationState α) :
    Fallible Exn (InferenceSession C K) α :=
  zoom InferenceSession.generationState (fun generationState s => { s with generationState }) x

def onCache {α : Type} (x : Fallible Exn C α) : Fallible Exn (InferenceSession C K) α :=
  zoom InferenceSession.kvCache (fun kvCache s => { s with kvCache }) x

end InferenceSession

/-! ## the two operations -/

namespace Decoder

open InferenceSession (onGeneration onCache)

variable {C K : Type} [KVCacheBase C]

/-- the layers have as many tokens as they should -/
def checkLayers (cache : C) (expectedTokens : Nat) (layers : List Nat) : Except Exn Unit :=
  layers.forM fun layer => do
    let count ← KVCacheBase.tokenCount cache layer
    if count ≠ expectedTokens then
      throw (.runtimeError "model forward did not advance every KV cache layer")

def execute (model : GenerationModel C K) (tokenIds : List TokenId) :
    Fallible Exn (InferenceSession C K) Unit := do
  let s ← read
  let position := s.generationState.currentTokenPosition
  throwIf (position > maxPosition - tokenIds.length)
    (.overflowError "generation sequence position overflows")
  let pass ← onCache (model.forward
    { batchSize := tokenIds.length
      sequencePosition := position
      hiddenDimension := model.hiddenDimension } tokenIds)
  let expectedTokens := position + tokenIds.length
  let s ← read
  settle (checkLayers s.kvCache expectedTokens (List.range model.layerCount))
  let forwardState ← settle (ForwardState.updated pass position expectedTokens)
  update fun s => { s with forwardState }
  onGeneration (GenerationState.advancePosition tokenIds.length)

def prefill (model : GenerationModel C K) (promptTokens : List TokenId) :
    Fallible Exn (InferenceSession C K) Unit := do
  let s ← read
  throwIf (s.generationState.active = true) (.logicError "inference session is already active")
  throwIf (promptTokens = [] ∨
      promptTokens.length > KVCacheBase.maximumSequenceLength s.kvCache)
    (.invalidArgument "prefill prompt exceeds KV cache capacity")
  onGeneration (GenerationState.begin promptTokens)
  execute model promptTokens

/-- the guard of `decode` -/
def rejects (s : InferenceSession C K) : Prop :=
  s.generationState.active = false ∨ s.generationState.finished ∨
    s.generationState.currentTokenPosition ≥ KVCacheBase.maximumSequenceLength s.kvCache

instance (s : InferenceSession C K) : Decidable (rejects s) :=
  inferInstanceAs (Decidable (_ ∨ _ ∨ _))

def decode (model : GenerationModel C K) (tokenId : TokenId) :
    Fallible Exn (InferenceSession C K) Unit := do
  let s ← read
  throwIf (rejects s) (.logicError "inference session cannot decode another token")
  execute model [tokenId]

end Decoder

end HyperMoE.Generation
