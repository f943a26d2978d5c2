import HyperMoE.Generation.Decoder
import HyperMoE.Lib.Binary32

/-!
# Generation

`Generator.cpp`: a prompt, then one token after another until a stop token or the last token that was
asked for.  The tokens that the sampler draws are given: one for each sample, out of the logits.

* `inScope`    a session that ends when its scope is left;
* `loop`       `while (!session.generationState().finished()) ...`;
* `generate`   the whole.

`Event` is what an observer notes: that a session begins or ends, and how it is before its prefill,
before each sample and before each decode.  The times of the metrics are left out.
-/

namespace HyperMoE.Generation

open Lib Lib.Fallible

/-! ## the configuration -/

inductive SamplingStrategy where
  | Greedy
  | Stochastic
  deriving DecidableEq, Repr

structure SamplingConfig where
  strategy : SamplingStrategy := .Greedy
  temperature : Binary32 := ⟨0x3f800000⟩
  topK : Nat := 0
  topP : Binary32 := ⟨0x3f800000⟩
  seed : Nat := 0
  deriving DecidableEq, Repr

/-- `x > 1.0F` of a finite number -/
def aboveOne (x : Binary32) : Bool := x.sign = 0 ∧ x.bits > 0x3f800000

def SamplingConfig.validate (c : SamplingConfig) (vocabularySize : Nat) : Except Exn Unit :=
  if vocabularySize = 0 ∨ c.temperature.isFinite = false ∨ c.temperature.notPositive = true ∨
      (c.topK ≠ 0 ∧ c.topK > vocabularySize) ∨ c.topP.isFinite = false ∨
      c.topP.notPositive = true ∨ aboveOne c.topP = true then
    .error (.invalidArgument "sampling configuration is invalid")
  else .ok ()

structure GenerationConfig where
  maximumNewTokens : Nat := 1
  sampling : SamplingConfig := {}
  stopTokenIds : List TokenId := []
  device : Device := .cpu

structure GenerationMetrics where
  decodeSteps : Nat := 0
  peakKVCacheBytes : Nat := 0
  deriving DecidableEq, Repr

structure GenerationResult where
  text : String
  promptTokens : List TokenId
  generatedTokens : List TokenId
  stopReason : GenerationStopReason
  metrics : GenerationMetrics
  deriving DecidableEq, Repr

structure Tokenizer where
  encode : String → Except Exn (List TokenId)
  decode : List TokenId → Except Exn String

/-- the answer of the sampler to its calls, in their order -/
abbrev Sampler (K : Type) := Nat → List K → Except Exn TokenId

/-! ## the states -/

inductive Event (C K : Type) where
  | allocated (id : KVCacheSessionId)
  | released (id : KVCacheSessionId)
  | prefill (s : InferenceSession C K)
  | sample (s : InferenceSession C K)
  | decode (s : InferenceSession C K)
  /-- a loop that had no fuel left -/
  | cutOff

structure Host (C K : Type) where
  manager : KVCacheManager C
  log : List (Event C K) := []

/-- the host, while a session is in scope -/
structure Running (C K : Type) extends Host C K where
  session : InferenceSession C K

variable {C K : Type} [KVCacheBase C]

def note (e : Event C K) (r : Running C K) : Running C K := { r with log := r.log ++ [e] }

/-- the manager has the cache that the session has -/
def Running.share (s : InferenceSession C K) (r : Running C K) : Running C K :=
  { r with
    session := s
    manager := { r.manager with sessions := r.manager.sessions.insert s.id s.kvCache } }

def onSession {α : Type} (x : Fallible Exn (InferenceSession C K) α) :
    Fallible Exn (Running C K) α := zoom Running.session Running.share x

def onManager {α : Type} (x : Fallible Exn (KVCacheManager C) α) : Fallible Exn (Running C K) α :=
  zoom (fun r => r.manager) (fun manager r => { r with manager }) x

/-- the destructor of the session; an exception of the release is swallowed -/
def Running.close (r : Running C K) : Host C K :=
  match (KVCacheManager.releaseSession r.session.id).exec r.manager with
  | (.ok (), manager) => { manager, log := r.log ++ [.released r.session.id] }
  | (.error _, manager) => { manager, log := r.log }

/-- a session and the code of its scope, however that is left -/
def inScope {α : Type} (make : Fallible Exn (KVCacheManager C) (InferenceSession C K))
    (x : Fallible Exn (Running C K) α) : Fallible Exn (Host C K) α := do
  let session ← zoom Host.manager (fun manager host => { host with manager }) make
  update fun host => { host with log := host.log ++ [.allocated session.id] }
  fun host =>
    let (r, s) := x { toHost := host, session }
    (r, s.close)

/-! ## the loop -/

def lastTokenLogits (model : GenerationModel C K) (state : ForwardState K) : Except Exn (List K) := do
  let logits := state.logits
  if state.valid = false ∨ logits.fp32 = false ∨ logits.contiguous = false ∨
      logits.dimensions.length ≠ 2 ∨ logits.dimensions.getD 1 0 ≠ model.vocabularySize then
    throw (.runtimeError "generation model returned incompatible logits")
  let host ← model.materializeHost logits
  let tokenCount := logits.dimensions.getD 0 0
  return (host.drop ((tokenCount - 1) * model.vocabularySize)).take model.vocabularySize

/-- a token is drawn, and appended; whether the generation has finished -/
def sampleNext (model : GenerationModel C K) (sampler : Sampler K) :
    Fallible Exn (Running C K) (TokenId × Bool) := do
  let r ← read
  let logits ← settle (lastTokenLogits model r.session.forwardState)
  update (note (.sample r.session))
  let token ← settle (sampler r.session.generationState.generatedTokens.length logits)
  let done ← onSession (InferenceSession.onGeneration (GenerationState.appendGenerated token))
  return (token, done)

def decodeNext (model : GenerationModel C K) (token : TokenId) :
    Fallible Exn (Running C K) KVCacheManagerStats := do
  let r ← read
  update (note (.decode r.session))
  onSession (Decoder.decode model token)
  onManager KVCacheManager.stats

def loop (model : GenerationModel C K) (sampler : Sampler K) (fuel : Nat)
    (metrics : GenerationMetrics) : Fallible Exn (Running C K) GenerationMetrics := do
  let r ← read
  if r.session.generationState.finished then return metrics
  else match fuel with
    | 0 => do
      update (note .cutOff)
      throw .outOfFuel
    | fuel + 1 => do
      let (token, done) ← sampleNext model sampler
      if done then return metrics
      else do
        let stats ← decodeNext model token
        loop model sampler fuel {
          decodeSteps := metrics.decodeSteps + 1
          peakKVCacheBytes := max metrics.peakKVCacheBytes stats.committedBytes }

/-! ## the whole -/

/-- the scope of the session -/
def generateIn (tokenizer : Tokenizer) (model : GenerationModel C K) (sampler : Sampler K)
    (maximumNewTokens : Nat) (promptTokens : List TokenId) :
    Fallible Exn (Running C K) GenerationResult := do
  let r ← read
  update (note (.prefill r.session))
  onSession (Decoder.prefill model promptTokens)
  let stats ← onManager KVCacheManager.stats
  let metrics ← loop model sampler maximumNewTokens { peakKVCacheBytes := stats.committedBytes }
  let r ← read
  let state := r.session.generationState
  let text ← settle (tokenizer.decode state.generatedTokens)
  return {
    text, promptTokens
    generatedTokens := state.generatedTokens
    stopReason := state.stopReason
    metrics }

def generate (tokenizer : Tokenizer) (model : GenerationModel C K) (sampler : Sampler K)
    (prompt : String) (config : GenerationConfig) : Fallible Exn (Host C K) GenerationResult := do
  settle (config.sampling.validate model.vocabularySize)
  throwIf (config.maximumNewTokens = 0)
    (.invalidArgument "generation requires at least one new token")
  throwIf (∃ token ∈ config.stopTokenIds, token ≥ model.vocabularySize)
    (.invalidArgument "generation stop token exceeds vocabulary")
  let promptTokens ← settle (tokenizer.encode prompt)
  let host ← read
  throwIf (promptTokens = [] ∨ promptTokens.length > host.manager.maximumSequenceLength ∨
      config.maximumNewTokens - 1 > host.manager.maximumSequenceLength - promptTokens.length)
    (.invalidArgument "prompt and requested output exceed the bounded KV cache sequence")
  inScope (InferenceSession.make model config.maximumNewTokens config.stopTokenIds config.device)
    (generateIn tokenizer model sampler config.maximumNewTokens promptTokens)

end HyperMoE.Generation
