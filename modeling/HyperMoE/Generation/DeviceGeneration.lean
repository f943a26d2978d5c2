import HyperMoE.Generation.Admission
import HyperMoE.Generation.Generator
import HyperMoE.Lib.Simulation
import HyperMoE.Transformer.ModelRuntime

/-!
# Generation on the device

`GenerationModel.cpp`, with the generator, the decoder, the sessions and the manager of their caches,
once on the host and once on a device.

* `TakesPlace`           what a model on a device must do to take the place of one on the host;
* `SameManager`, `SameRunning`   managers and running generations that stand for each other;
* `generate_simulates`   one generation;
* `hostModel`, `deviceModel`   the two models;
* `serve_of_host`        what the host generates, request after request, the device generates.
-/

namespace HyperMoE.Generation

open Lib Lib.Fallible Transformer Tensor
open Admission (Shaped Accounted shaped_make past_self exec_stats)

variable {K : Type}

/-- the extents of all caches, and where those of a device are -/
structure Extents where
  layers : Nat
  sequence : Nat
  heads : Nat
  dimension : Nat
  device : Device

/-- a cache of the host, and the cache that a device has in its place -/
structure SameKept (e : Extents) (d : CudaKVCache K) (c : KVCache K) : Prop where
  same : Same c d
  shaped : Shaped e.layers e.sequence e.heads e.dimension c

/-- `forward` may change the cache, but not its extents -/
structure TakesPlace (e : Extents) (y : GenerationModel (CudaKVCache K) K)
    (x : GenerationModel (KVCache K) K) : Prop where
  device : y.device = e.device
  vocabularySize : y.vocabularySize = x.vocabularySize
  hiddenDimension : y.hiddenDimension = x.hiddenDimension
  layerCount : y.layerCount = x.layerCount
  keyValueHeads : y.keyValueHeads = x.keyValueHeads
  headDimension : y.headDimension = x.headDimension
  materializeHost : ∀ value, y.materializeHost value = x.materializeHost value
  forward : ∀ context tokenIds d c, tokenIds.length ≤ e.sequence → SameKept e d c →
    Replaces (SameKept e) (y.forward context tokenIds) d (x.forward context tokenIds) c

/-- all but the largest number of bytes that was ever in use -/
structure SameManager (e : Extents) (t : KVCacheManager (CudaKVCache K))
    (s : KVCacheManager (KVCache K)) : Prop where
  device : t.device = e.device
  layers : t.layerCount = e.layers ∧ s.layerCount = e.layers
  sequence : t.maximumSequenceLength = e.sequence ∧ s.maximumSequenceLength = e.sequence
  heads : t.keyValueHeads = e.heads ∧ s.keyValueHeads = e.heads
  dimension : t.headDimension = e.dimension ∧ s.headDimension = e.dimension
  memoryLimitBytes : t.memoryLimitBytes = s.memoryLimitBytes
  bytesPerSession : t.bytesPerSession = s.bytesPerSession
  reservedBytes : t.reservedBytes = s.reservedBytes
  nextSessionId : t.nextSessionId = s.nextSessionId
  sessions : ∀ id, Option.Rel (SameKept e) (t.sessions.lookup id) (s.sessions.lookup id)
  accounted : Accounted t

/-! ## the manager -/

section
variable {e : Extents} {t : KVCacheManager (CudaKVCache K)} {s : KVCacheManager (KVCache K)}
  {d : CudaKVCache K} {c : KVCache K} {id : KVCacheSessionId}

theorem SameManager.mem_iff (h : SameManager e t s) : id ∈ t.sessions ↔ id ∈ s.sessions := by
  rw [← AList.lookup_isSome, ← AList.lookup_isSome]
  have hrel := h.sessions id
  cases ht : t.sessions.lookup id with
  | none =>
    rw [ht] at hrel
    cases hs : s.sessions.lookup id with
    | none => rfl
    | some c =>
      rw [hs] at hrel
      exact nomatch hrel
  | some d =>
    rw [ht] at hrel
    cases hs : s.sessions.lookup id with
    | none =>
      rw [hs] at hrel
      exact nomatch hrel
    | some c => rfl

theorem exists_make (h : KVCacheBase.make e.layers e.sequence e.heads e.dimension = .ok c) :
    ∃ d : CudaKVCache K, KVCacheBase.make e.layers e.sequence e.heads e.dimension = .ok d ∧
      SameKept e d c := by
  have hmade : KVCache.make K e.layers e.sequence e.heads e.dimension = .ok c :=
    Outcome.mapError_eq_ok.mp h
  obtain ⟨hshaped, bytes, hbytes⟩ := shaped_make hmade
  have hdevice : CudaKVCache.make K true e.layers e.sequence e.heads e.dimension =
      .ok ⟨e.sequence, e.heads, e.dimension, List.replicate e.layers {}⟩ := by
    refine Outcome.bind_eq_ok.mpr ⟨c, hmade, Outcome.bind_eq_ok.mpr ⟨bytes, ?_, rfl⟩⟩
    rw [hshaped.checked, hbytes]
  exact ⟨_, Outcome.mapError_eq_ok.mpr hdevice, same_make hmade hdevice, hshaped⟩

/-- another cache for a session, or for a new one -/
theorem rel_insert (h : ∀ id, Option.Rel (SameKept e) (t.sessions.lookup id) (s.sessions.lookup id))
    (hkept : SameKept e d c) (id id' : KVCacheSessionId) :
    Option.Rel (SameKept e) ((t.sessions.insert id d).lookup id') ((s.sessions.insert id c).lookup id') := by
  rw [Table.lookup_insert', Table.lookup_insert']
  split
  · exact .some hkept
  · exact h id'

theorem allocateSession_simulates (h : SameManager e t s) :
    Simulates (fun b a => b.1 = a.1 ∧ SameKept e b.2 a.2) (SameManager e)
      KVCacheManager.allocateSession t KVCacheManager.allocateSession s := by
  unfold KVCacheManager.allocateSession
  refine .read_bind (.throwIf_bind fun hroom => ⟨?_, .throwIf_bind fun hid => ⟨?_, .update_bind ?_⟩⟩)
  · rwa [h.reservedBytes, h.memoryLimitBytes, h.bytesPerSession]
  · rwa [h.nextSessionId]
  · have hne : t.nextSessionId ≠ 0 := h.nextSessionId ▸ hid
    have hnext := h.accounted.next hne
    intro a s' hgives
    obtain ⟨c, hmake, hgives⟩ := gives_settle_bind.mp hgives
    obtain ⟨hnew, hgives⟩ := gives_throwIf_bind.mp hgives
    have hgives := gives_update_bind.mp hgives
    obtain ⟨rfl, rfl⟩ := gives_pure.mp hgives
    rw [h.layers.2, h.sequence.2, h.heads.2, h.dimension.2] at hmake
    obtain ⟨d, hdevice, hkept⟩ := exists_make hmake
    rw [← h.layers.1, ← h.sequence.1, ← h.heads.1, ← h.dimension.1] at hdevice
    have hnew' : t.nextSessionId ∉ t.sessions := by
      rw [h.mem_iff, h.nextSessionId]
      exact hnew
    refine ⟨(t.nextSessionId, d), _, gives_settle_bind.mpr ⟨d, hdevice, gives_throwIf_bind.mpr
      ⟨hnew', gives_update_bind.mpr (gives_pure.mpr ⟨rfl, rfl⟩)⟩⟩, ⟨h.nextSessionId, hkept⟩, ?_⟩
    exact {
      h with
      reservedBytes := congrArg₂ (· + ·) h.reservedBytes h.bytesPerSession
      nextSessionId := congrArg (fun id => (id + 1) % 2 ^ 64) h.nextSessionId
      sessions := by
        show ∀ id, Option.Rel (SameKept e) ((t.sessions.insert t.nextSessionId d).lookup id)
          ((s.sessions.insert s.nextSessionId c).lookup id)
        rw [h.nextSessionId]
        exact rel_insert h.sessions hkept _
      accounted := hnext.insert (AList.lookup_eq_none.mpr hnew')
        (past_self hne h.accounted.next_lt) (Admission.Bounded.within_make hdevice) (by
          have hfits := h.accounted.fits
          show t.reservedBytes + t.bytesPerSession ≤ t.memoryLimitBytes
          rw [h.reservedBytes, h.bytesPerSession, h.memoryLimitBytes] at *
          omega) }

theorem releaseSession_replaces (h : SameManager e t s) (id : KVCacheSessionId) :
    Replaces (SameManager e) (KVCacheManager.releaseSession id) t
      (KVCacheManager.releaseSession id) s := by
  unfold KVCacheManager.releaseSession
  refine .read_bind (.throwIf_bind fun hid => ⟨fun hnot => hid fun hmem =>
    hnot (h.mem_iff.mpr hmem), ?_⟩)
  intro a s' hgives
  obtain rfl := gives_update.mp hgives
  obtain ⟨d, hd⟩ : ∃ d, t.sessions.lookup id = some d :=
    Option.isSome_iff_exists.mp (AList.lookup_isSome.mpr (h.mem_iff.mpr (not_not.mp hid)))
  refine ⟨(), _, gives_update.mpr rfl, rfl, { h with
    reservedBytes := congrArg₂ (· - ·) h.reservedBytes h.bytesPerSession
    sessions := fun id' => ?_
    accounted := h.accounted.erase hd }⟩
  show Option.Rel (SameKept e) ((t.sessions.erase id).lookup id') ((s.sessions.erase id).lookup id')
  rw [Table.lookup_erase', Table.lookup_erase']
  split
  · exact .none
  · exact h.sessions id'

/-- the bytes in use need not be the same -/
theorem stats_simulates (h : SameManager e t s) : Simulates (fun _ _ => True)
    (fun t' s' => SameManager e t' s' ∧ s'.sessions = s.sessions)
    KVCacheManager.stats t KVCacheManager.stats s := by
  intro a s' hgives
  obtain ⟨committed, -, hgives⟩ := gives_settle_bind.mp (gives_read_bind.mp hgives)
  have hgives := gives_update_bind.mp hgives
  obtain ⟨-, rfl⟩ := gives_pure.mp hgives
  obtain ⟨b, hexec, -⟩ := exec_stats h.accounted
  exact ⟨b, _, hexec, trivial, { h with accounted := { h.accounted with } }, rfl⟩

end

/-! ## sessions -/

structure SameSession (e : Extents) (id : KVCacheSessionId)
    (v : InferenceSession (CudaKVCache K) K) (u : InferenceSession (KVCache K) K) : Prop where
  id : v.id = id ∧ u.id = id
  kvCache : SameKept e v.kvCache u.kvCache
  generationState : v.generationState = u.generationState
  forwardState : v.forwardState = u.forwardState

section
variable {e : Extents} {y : GenerationModel (CudaKVCache K) K} {x : GenerationModel (KVCache K) K}
  {t : KVCacheManager (CudaKVCache K)} {s : KVCacheManager (KVCache K)} {id : KVCacheSessionId}
  {v : InferenceSession (CudaKVCache K) K} {u : InferenceSession (KVCache K) K}

theorem make_simulates (hplace : TakesPlace e y x) (h : SameManager e t s)
    (maximumNewTokens : Nat) (stopTokenIds : List TokenId) (device : Device) :
    Simulates (fun v u => SameSession e u.id v u) (SameManager e)
      (InferenceSession.make y maximumNewTokens stopTokenIds e.device) t
      (InferenceSession.make x maximumNewTokens stopTokenIds device) s := by
  unfold InferenceSession.make
  refine .settle_bind fun generationState hstate => ⟨hstate, .read_bind (.throwIf_bind fun hfits =>
    ⟨?_, .bind (allocateSession_simulates h) fun b a t' s' _ hsame h' =>
      .pure ⟨⟨hsame.1, rfl⟩, hsame.2, rfl, rfl⟩ h'⟩)⟩
  push Not at hfits ⊢
  rw [hplace.layerCount, hplace.keyValueHeads, hplace.headDimension, h.layers.1, h.heads.1,
    h.dimension.1, h.sequence.1, ← h.layers.2, ← h.heads.2, ← h.dimension.2, ← h.sequence.2]
  exact ⟨hfits.1, hfits.2.1, hfits.2.2.1, hplace.device, hplace.device.trans h.device.symm,
    hfits.2.2.2.2.2⟩

/-! ## the decoder -/

theorem tokenCount_same {d : CudaKVCache K} {c : KVCache K} {layer count : Nat} (h : Same c d)
    (hcount : KVCacheBase.tokenCount c layer = .ok count) :
    KVCacheBase.tokenCount d layer = .ok count := by
  replace hcount : (if layer ≥ c.layers.length then .error (.outOfRange "KV cache layer is invalid")
    else .ok (c.layer layer).positions.length : Except Exn Nat) = .ok count := hcount
  show (if layer ≥ d.layers.length then .error (.outOfRange "CUDA KV cache layer is invalid")
    else .ok (d.storage layer).tokens : Except Exn Nat) = .ok count
  split at hcount
  · exact nomatch hcount
  · next hlayer =>
    rw [h.length, if_neg hlayer, (h.layers layer).tokens]
    exact hcount

theorem checkLayers_same {d : CudaKVCache K} {c : KVCache K} {expectedTokens : Nat} {layers : List Nat}
    (h : Same c d) (hcheck : Decoder.checkLayers c expectedTokens layers = .ok ()) :
    Decoder.checkLayers d expectedTokens layers = .ok () := by
  unfold Decoder.checkLayers at *
  induction layers with
  | nil => rfl
  | cons layer layers ih =>
    obtain ⟨_, hfirst, hrest⟩ := Outcome.bind_eq_ok.mp hcheck
    obtain ⟨count, hcount, hguard⟩ := Outcome.bind_eq_ok.mp hfirst
    exact Outcome.bind_eq_ok.mpr
      ⟨(), Outcome.bind_eq_ok.mpr ⟨count, tokenCount_same h hcount, hguard⟩, ih hrest⟩

theorem onGeneration_replaces {α : Type} (z : Fallible Exn GenerationState α)
    (h : SameSession e id v u) : Replaces (SameSession e id) (InferenceSession.onGeneration z) v
      (InferenceSession.onGeneration z) u :=
  .zoom (Replaces.same z h.generationState) fun _ _ hstate => { h with generationState := hstate }

theorem execute_replaces (hplace : TakesPlace e y x) (h : SameSession e id v u)
    {tokenIds : List TokenId} (hcount : tokenIds.length ≤ e.sequence) :
    Replaces (SameSession e id) (Decoder.execute y tokenIds) v (Decoder.execute x tokenIds) u := by
  unfold Decoder.execute
  refine .read_bind ?_
  rw [h.generationState, hplace.hiddenDimension, hplace.layerCount]
  refine .throwIf_bind fun hposition => ⟨hposition, ?_⟩
  refine Replaces.bind (R := SameSession e id) (.zoom (hplace.forward _ _ _ _ hcount h.kvCache) fun d c hkept =>
    { h with kvCache := hkept }) fun pass v' u' _ h' => .read_bind (.settle_bind fun _ hlayers =>
      ⟨checkLayers_same h'.kvCache.same hlayers, .settle_bind fun forwardState hforward =>
        ⟨hforward, .update_bind (onGeneration_replaces _ { h' with forwardState := rfl })⟩⟩)

theorem prefill_replaces (hplace : TakesPlace e y x) (h : SameSession e id v u)
    (promptTokens : List TokenId) : Replaces (SameSession e id) (Decoder.prefill y promptTokens) v
      (Decoder.prefill x promptTokens) u := by
  unfold Decoder.prefill
  refine .read_bind ?_
  rw [h.generationState]
  refine .throwIf_bind fun hactive => ⟨hactive, .throwIf_bind fun hprompt => ?_⟩
  push Not at hprompt
  have hcapacity : promptTokens.length ≤ e.sequence := h.kvCache.shaped.sequence ▸ hprompt.2
  refine ⟨?_, Replaces.bind (onGeneration_replaces _ h) fun _ v' u' _ h' =>
    execute_replaces hplace h' hcapacity⟩
  push Not
  refine ⟨hprompt.1, ?_⟩
  show promptTokens.length ≤ v.kvCache.maximumSequenceLength
  rw [h.kvCache.same.maximum, h.kvCache.shaped.sequence]
  exact hcapacity

theorem decode_replaces (hplace : TakesPlace e y x) (h : SameSession e id v u) (tokenId : TokenId) :
    Replaces (SameSession e id) (Decoder.decode y tokenId) v (Decoder.decode x tokenId) u := by
  have hmaximum : v.kvCache.maximumSequenceLength = u.kvCache.maximumSequenceLength :=
    h.kvCache.same.maximum
  have hrejects : Decoder.rejects v ↔ Decoder.rejects u := by
    unfold Decoder.rejects
    rw [h.generationState, show KVCacheBase.maximumSequenceLength v.kvCache =
      KVCacheBase.maximumSequenceLength u.kvCache from hmaximum]
  unfold Decoder.decode
  refine .read_bind (.throwIf_bind fun haccepts => ⟨fun hv => haccepts (hrejects.mp hv), ?_⟩)
  refine execute_replaces hplace h ?_
  unfold Decoder.rejects at haccepts
  push Not at haccepts
  have hroom : u.generationState.currentTokenPosition < u.kvCache.maximumSequenceLength :=
    haccepts.2.2
  rw [h.kvCache.shaped.sequence] at hroom
  exact Nat.succ_le_of_lt (Nat.zero_lt_of_lt hroom)

end

/-! ## a generation -/

structure SameHost (e : Extents) (t : Host (CudaKVCache K) K) (s : Host (KVCache K) K) : Prop where
  manager : SameManager e t.manager s.manager

/-- the manager of either has the cache of the session -/
structure SameRunning (e : Extents) (id : KVCacheSessionId) (t : Running (CudaKVCache K) K)
    (s : Running (KVCache K) K) : Prop extends SameHost e t.toHost s.toHost where
  session : SameSession e id t.session s.session
  held : id ∈ s.manager.sessions

/-- all but the bytes in use -/
structure SameResult (b a : GenerationResult) : Prop where
  text : b.text = a.text
  promptTokens : b.promptTokens = a.promptTokens
  generatedTokens : b.generatedTokens = a.generatedTokens
  stopReason : b.stopReason = a.stopReason
  decodeSteps : b.metrics.decodeSteps = a.metrics.decodeSteps

section
variable {e : Extents} {y : GenerationModel (CudaKVCache K) K} {x : GenerationModel (KVCache K) K}
  {id : KVCacheSessionId} {t : Running (CudaKVCache K) K} {s : Running (KVCache K) K}

theorem SameRunning.share (h : SameRunning e id t s) {v : InferenceSession (CudaKVCache K) K}
    {u : InferenceSession (KVCache K) K} (hsession : SameSession e id v u) :
    SameRunning e id (t.share v) (s.share u) := by
  obtain ⟨d, hd⟩ : ∃ d, t.manager.sessions.lookup id = some d :=
    Option.isSome_iff_exists.mp (AList.lookup_isSome.mpr (h.manager.mem_iff.mpr h.held))
  have hwithin : Admission.Bounded.Within t.manager.layerCount t.manager.maximumSequenceLength
      t.manager.keyValueHeads t.manager.headDimension v.kvCache := by
    rw [h.manager.layers.1, h.manager.sequence.1, h.manager.heads.1, h.manager.dimension.1]
    exact ⟨u.kvCache, hsession.kvCache.same, hsession.kvCache.shaped⟩
  unfold Running.share
  rw [hsession.id.1, hsession.id.2]
  exact ⟨⟨{ h.manager with
      sessions := rel_insert h.manager.sessions hsession.kvCache id
      accounted := h.manager.accounted.replace hd hwithin }⟩, hsession,
    AList.lookup_isSome.mp (by rw [AList.lookup_insert]; rfl)⟩

theorem SameRunning.note (h : SameRunning e id t s) (event : Event (CudaKVCache K) K)
    (event' : Event (KVCache K) K) : SameRunning e id (note event t) (note event' s) :=
  ⟨⟨h.manager⟩, h.session, h.held⟩

theorem onSession_simulates {α β : Type} {A : β → α → Prop}
    {z : Fallible Exn (InferenceSession (KVCache K) K) α}
    {z' : Fallible Exn (InferenceSession (CudaKVCache K) K) β} (h : SameRunning e id t s)
    (hz : Simulates A (SameSession e id) z' t.session z s.session) :
    Simulates A (SameRunning e id) (onSession z') t (onSession z) s :=
  .zoom hz fun _ _ hsession => h.share hsession

theorem onManager_stats (h : SameRunning e id t s) : Simulates (fun _ _ => True) (SameRunning e id)
    (onManager KVCacheManager.stats) t (onManager KVCacheManager.stats) s :=
  .zoom (stats_simulates h.manager) fun _ _ hstats => ⟨⟨hstats.1⟩, h.session, hstats.2 ▸ h.held⟩

theorem lastTokenLogits_same (hplace : TakesPlace e y x) (state : ForwardState K) :
    lastTokenLogits y state = lastTokenLogits x state := by
  unfold lastTokenLogits
  rw [hplace.vocabularySize]
  simp only [hplace.materializeHost]

theorem sampleNext_replaces (hplace : TakesPlace e y x) (sampler : Sampler K)
    (h : SameRunning e id t s) :
    Replaces (SameRunning e id) (sampleNext y sampler) t (sampleNext x sampler) s := by
  unfold sampleNext
  refine .read_bind ?_
  rw [lastTokenLogits_same hplace, h.session.forwardState, h.session.generationState]
  refine .settle_bind fun logits hlogits => ⟨hlogits, .update_bind (.settle_bind fun token htoken =>
    ⟨htoken, Replaces.bind (onSession_simulates (h.note _ _)
      (onGeneration_replaces _ h.session)) fun done t' s' _ h' => Replaces.pure h' _⟩)⟩

theorem decodeNext_simulates (hplace : TakesPlace e y x) (token : TokenId)
    (h : SameRunning e id t s) : Simulates (fun _ _ => True) (SameRunning e id)
      (decodeNext y token) t (decodeNext x token) s := by
  unfold decodeNext
  exact .read_bind (.update_bind (.bind (onSession_simulates (h.note _ _)
    (decode_replaces hplace h.session token)) fun _ _ t' s' _ _ h' => onManager_stats h'))

theorem loop_simulates (hplace : TakesPlace e y x) (sampler : Sampler K) (fuel : Nat)
    {b a : GenerationMetrics} (hsteps : b.decodeSteps = a.decodeSteps) (h : SameRunning e id t s) :
    Simulates (fun b a : GenerationMetrics => b.decodeSteps = a.decodeSteps) (SameRunning e id)
      (loop y sampler fuel b) t (loop x sampler fuel a) s := by
  induction fuel generalizing b a t s with
  | zero =>
    unfold loop
    refine .read_bind ?_
    rw [h.session.generationState]
    split
    · exact .pure hsteps h
    · intro c s' hgives
      exact nomatch gives_update_bind.mp hgives
  | succ fuel ih =>
    unfold loop
    refine .read_bind ?_
    rw [h.session.generationState]
    split
    · exact .pure hsteps h
    · refine Replaces.bind (sampleNext_replaces hplace sampler h) fun (token, done) t' s' _ h' => ?_
      dsimp only
      split
      · exact .pure hsteps h'
      · refine .bind (decodeNext_simulates hplace token h') fun _ _ t' s' _ _ h' => ih ?_ h'
        exact congrArg (· + 1) hsteps

theorem generateIn_simulates (hplace : TakesPlace e y x) (tokenizer : Tokenizer) (sampler : Sampler K)
    (maximumNewTokens : Nat) (promptTokens : List TokenId) (h : SameRunning e id t s) :
    Simulates SameResult (SameRunning e id)
      (generateIn tokenizer y sampler maximumNewTokens promptTokens) t
      (generateIn tokenizer x sampler maximumNewTokens promptTokens) s := by
  unfold generateIn
  refine .read_bind (.update_bind (.bind (onSession_simulates (h.note _ _)
    (prefill_replaces hplace h.session promptTokens)) fun _ _ t₁ s₁ _ _ h₁ =>
      .bind (onManager_stats h₁) fun _ _ t₂ s₂ _ _ h₂ => .bind (loop_simulates hplace sampler _ rfl h₂)
        fun b a t₃ s₃ _ hsteps h₃ => .read_bind ?_))
  rw [h₃.session.generationState]
  exact .settle_bind fun text htext => ⟨htext, .pure ⟨rfl, rfl, rfl, rfl, hsteps⟩ h₃⟩

theorem SameRunning.close (h : SameRunning e id t s) : SameHost e t.close s.close := by
  have hhost : Gives (KVCacheManager.releaseSession s.session.id) s.manager () { s.manager with
      sessions := s.manager.sessions.erase s.session.id
      reservedBytes := s.manager.reservedBytes - s.manager.bytesPerSession } := by
    rw [h.session.id.2]
    exact gives_read_bind.mpr (gives_throwIf_bind.mpr ⟨not_not.mpr h.held, gives_update.mpr rfl⟩)
  obtain ⟨_, m, hdevice, rfl, hmanager⟩ :=
    releaseSession_replaces h.manager s.session.id () _ hhost
  rw [h.session.id.2, ← h.session.id.1] at hdevice
  unfold Running.close
  rw [show (KVCacheManager.releaseSession s.session.id).exec s.manager = _ from hhost,
    show (KVCacheManager.releaseSession t.session.id).exec t.manager = _ from hdevice]
  exact ⟨hmanager⟩

theorem held_of_make {m m' : KVCacheManager (KVCache K)} {maximumNewTokens : Nat}
    {stopTokenIds : List TokenId} {device : Device} {u : InferenceSession (KVCache K) K}
    (h : Gives (InferenceSession.make x maximumNewTokens stopTokenIds device) m u m') :
    u.id ∈ m'.sessions := by
  obtain ⟨_, -, h⟩ := gives_settle_bind.mp h
  obtain ⟨-, h⟩ := gives_throwIf_bind.mp (gives_read_bind.mp h)
  obtain ⟨allocation, _, hallocate, h⟩ := gives_bind.mp h
  obtain ⟨rfl, rfl⟩ := gives_pure.mp h
  obtain ⟨-, hallocate⟩ := gives_throwIf_bind.mp (gives_read_bind.mp hallocate)
  obtain ⟨-, hallocate⟩ := gives_throwIf_bind.mp hallocate
  have hallocate := gives_update_bind.mp hallocate
  obtain ⟨c, -, hallocate⟩ := gives_settle_bind.mp hallocate
  obtain ⟨-, hallocate⟩ := gives_throwIf_bind.mp hallocate
  have hallocate := gives_update_bind.mp hallocate
  obtain ⟨rfl, rfl⟩ := gives_pure.mp hallocate
  exact AList.lookup_isSome.mp (by rw [AList.lookup_insert]; rfl)

/-- the scope of a session: the destructor releases what the constructor allocated -/
theorem inScope_simulates {α β : Type} {A : β → α → Prop} {t : Host (CudaKVCache K) K}
    {s : Host (KVCache K) K} {z : Fallible Exn (Running (KVCache K) K) α}
    {z' : Fallible Exn (Running (CudaKVCache K) K) β} (hplace : TakesPlace e y x)
    (h : SameHost e t s) (maximumNewTokens : Nat) (stopTokenIds : List TokenId) (device : Device)
    (hz : ∀ id t s, SameRunning e id t s → Simulates A (SameRunning e id) z' t z s) :
    Simulates A (SameHost e)
      (inScope (InferenceSession.make y maximumNewTokens stopTokenIds e.device) z') t
      (inScope (InferenceSession.make x maximumNewTokens stopTokenIds device) z) s := by
  unfold inScope
  refine .bind (.zoom (R := SameHost e) (make_simulates hplace h.manager maximumNewTokens stopTokenIds
    device) fun _ _ hmanager => ⟨hmanager⟩) fun v u t₁ s₁ hgives hsession h₁ => .update_bind ?_
  obtain ⟨m, hmake, rfl⟩ := gives_zoom.mp hgives
  intro a s' hx
  have hrunning : SameRunning e u.id
      ⟨{ t₁ with log := t₁.log ++ [.allocated v.id] }, v⟩
      ⟨{ manager := m, log := s.log ++ [.allocated u.id] }, u⟩ :=
    ⟨⟨h₁.manager⟩, hsession, held_of_make hmake⟩
  cases hexec : z ⟨{ manager := m, log := s.log ++ [.allocated u.id] }, u⟩ with
  | mk r s₂ =>
    have hpair : (r, s₂.close) = (.ok a, s') := by
      unfold Gives exec at hx
      dsimp only at hx
      rwa [hexec] at hx
    obtain ⟨rfl, rfl⟩ := Prod.mk.inj hpair
    obtain ⟨b, t₂, hdevice, hA, h₂⟩ := hz _ _ _ hrunning a s₂ hexec
    refine ⟨b, t₂.close, ?_, hA, h₂.close⟩
    unfold Gives exec at hdevice ⊢
    dsimp only
    rw [hdevice]

end

theorem generate_simulates {e : Extents} {y : GenerationModel (CudaKVCache K) K}
    {x : GenerationModel (KVCache K) K} {t : Host (CudaKVCache K) K} {s : Host (KVCache K) K}
    (hplace : TakesPlace e y x) (tokenizer : Tokenizer) (sampler : Sampler K) (prompt : String)
    (config : GenerationConfig) (h : SameHost e t s) :
    Simulates SameResult (SameHost e)
      (generate tokenizer y sampler prompt { config with device := e.device }) t
      (generate tokenizer x sampler prompt config) s := by
  unfold generate
  rw [hplace.vocabularySize]
  refine .settle_bind fun _ hsampling => ⟨hsampling, .throwIf_bind fun hmaximum => ⟨hmaximum,
    .throwIf_bind fun hstop => ⟨hstop, .settle_bind fun promptTokens hprompt => ⟨hprompt,
      .read_bind (.throwIf_bind fun hcapacity => ⟨?_, ?_⟩)⟩⟩⟩⟩
  · rwa [h.manager.sequence.1, ← h.manager.sequence.2]
  · exact inScope_simulates hplace h _ _ _ fun id t s hrunning =>
      generateIn_simulates hplace tokenizer sampler _ _ hrunning

/-! ## the two models -/

def PassTensor.ofGrid (g : Grid K) : PassTensor K := ⟨true, [g.rows, g.columns], true, true, g.values⟩

/-- what a session keeps of a forward pass -/
def passOf (result : ModelForwardResult K) : Except StdError (ForwardPass K) :=
  match result.transformer.layers.getLast? with
  | none => throw (.runtime_error "model runtime returned no transformer layers")
  | some layer => pure {
      hiddenStates := .ofGrid result.normalizedHiddenStates
      logits := .ofGrid result.logits
      finalLayer := layer.layerId
      routing := layer.routing }

def materializeHost (value : PassTensor K) : Except Exn (List K) :=
  if value.valid = false ∨ value.contiguous = false then
    .error (.invalidArgument "model runtime cannot materialize incompatible tensor")
  else .ok value.values

variable [Field K] [LinearOrder K]

def hostModel (N : Numerics K) (runtime : ModelRuntime K) : GenerationModel (KVCache K) K where
  vocabularySize := runtime.architecture.vocabularySize.toNat
  hiddenDimension := runtime.architecture.hiddenDimension.toNat
  layerCount := runtime.architecture.layerCount.toNat
  keyValueHeads := runtime.architecture.keyValueHeads.toNat
  headDimension := runtime.architecture.headDimension.toNat
  device := .cpu
  materializeHost := materializeHost
  forward context tokenIds := mapError ofStdError (do
    let result ← zoom (fun cache => ⟨context, cache⟩) (fun s _ => s.cache)
      (runtime.forwardImpl N tokenIds)
    settle (passOf result))

/-- `run` is what the device does in the passes of one generation, by their positions -/
def deviceModel (cublas : Cublas K) (N : Numerics K) (mode : Backend.Int8GemmMode)
    (run : Nat → ForwardRun K) (device : Device) (runtime : ModelRuntime K) :
    GenerationModel (CudaKVCache K) K where
  vocabularySize := runtime.architecture.vocabularySize.toNat
  hiddenDimension := runtime.architecture.hiddenDimension.toNat
  layerCount := runtime.architecture.layerCount.toNat
  keyValueHeads := runtime.architecture.keyValueHeads.toNat
  headDimension := runtime.architecture.headDimension.toNat
  device := device
  materializeHost := materializeHost
  forward context tokenIds := mapError ofStdError (do
    let result ← zoom (fun cache => ⟨context, cache⟩) (fun s _ => s.cache)
      (CudaForward.forwardImpl cublas N mode (run context.sequencePosition) runtime tokenIds)
    settle (passOf result))

theorem ne_nil_of_forwardImpl {N : Numerics K} {runtime : ModelRuntime K} {tokenIds : List TokenId}
    {s s' : PassState K} {r : ModelForwardResult K}
    (h : Gives (runtime.forwardImpl N tokenIds) s r s') : tokenIds ≠ [] := by
  obtain ⟨_, -, h⟩ := gives_settle_bind.mp (gives_read_bind.mp h)
  obtain ⟨hbatch, -⟩ := gives_throwIf_bind.mp h
  exact fun hnil => hbatch (Or.inl hnil)

/-- the longest pass is not too long for the launches -/
theorem takesPlace {cublas : Cublas K} {N : Numerics K} {mode : Backend.Int8GemmMode}
    {run : Nat → ForwardRun K} {runtime : ModelRuntime K} {e : Extents} (hcublas : cublas.Documented)
    (hinput : runtime.transformer.block.inputNormalization.Made)
    (hpost : runtime.transformer.block.normalization.Made)
    (hlimits : CudaForward.Limits runtime e.sequence) :
    TakesPlace e (deviceModel cublas N mode run e.device runtime) (hostModel N runtime) where
  device := rfl
  vocabularySize := rfl
  hiddenDimension := rfl
  layerCount := rfl
  keyValueHeads := rfl
  headDimension := rfl
  materializeHost _ := rfl
  forward context tokenIds d c hcount h := by
    refine .mapError (Replaces.bind (R := SameKept e) ?_ fun result _ _ _ hkept =>
      Replaces.settle hkept _)
    intro result c' hgives
    obtain ⟨s', hforward, rfl⟩ := gives_zoom.mp hgives
    have hne := ne_nil_of_forwardImpl hforward
    have hlimits' : CudaForward.Limits runtime tokenIds.length :=
      ⟨hlimits.layers.mono (List.length_pos_iff.mpr hne) hcount, hlimits.vocabulary⟩
    obtain ⟨_, t', hdevice, rfl, hpass⟩ := CudaForward.forward_replaces
      (t := ⟨context, d⟩) hcublas hinput hpost hlimits' ⟨rfl, h.same⟩ result s' hforward
    have hshape := CudaForward.sameShape_of_forwardImpl hforward
    exact ⟨_, t'.cache, gives_zoom.mpr ⟨t', hdevice, rfl⟩, rfl, hpass.cache,
      hshape.length.trans h.shaped.layers, hshape.maximum.trans h.shaped.sequence,
      hshape.keyValueHeads.trans h.shaped.heads, hshape.headDimension.trans h.shaped.dimension⟩

/-! ## requests, one after another -/

/-- a prompt and what is asked for; `run` is what the device does in the passes of its generation -/
structure Request (K : Type) where
  prompt : String
  config : GenerationConfig
  sampler : Sampler K
  run : Nat → ForwardRun K

/-- the results of all requests; the first that throws ends it -/
def serve {σ : Type} (perform : Request K → Fallible Exn σ GenerationResult) :
    List (Request K) → Fallible Exn σ (List GenerationResult)
  | [] => pure []
  | request :: requests => do
    let result ← perform request
    let results ← serve perform requests
    return result :: results

def Request.onHost (N : Numerics K) (runtime : ModelRuntime K) (tokenizer : Tokenizer)
    (request : Request K) : Fallible Exn (Host (KVCache K) K) GenerationResult :=
  generate tokenizer (hostModel N runtime) request.sampler request.prompt request.config

/-- on a device, and with a configuration that asks for it -/
def Request.onDevice (cublas : Cublas K) (N : Numerics K) (mode : Backend.Int8GemmMode)
    (device : Device) (runtime : ModelRuntime K) (tokenizer : Tokenizer) (request : Request K) :
    Fallible Exn (Host (CudaKVCache K) K) GenerationResult :=
  generate tokenizer (deviceModel cublas N mode request.run device runtime) request.sampler
    request.prompt { request.config with device }

section
variable {cublas : Cublas K} {N : Numerics K} {mode : Backend.Int8GemmMode} {runtime : ModelRuntime K}
  {tokenizer : Tokenizer} {e : Extents} {t : Host (CudaKVCache K) K} {s : Host (KVCache K) K}

theorem serve_simulates (hcublas : cublas.Documented)
    (hinput : runtime.transformer.block.inputNormalization.Made)
    (hpost : runtime.transformer.block.normalization.Made)
    (hlimits : CudaForward.Limits runtime e.sequence) (requests : List (Request K))
    (h : SameHost e t s) : Simulates (List.Forall₂ SameResult) (SameHost e)
      (serve (Request.onDevice cublas N mode e.device runtime tokenizer) requests) t
      (serve (Request.onHost N runtime tokenizer) requests) s := by
  induction requests generalizing t s with
  | nil => exact .pure .nil h
  | cons request requests ih =>
    exact .bind (generate_simulates (takesPlace hcublas hinput hpost hlimits) tokenizer _ _ _ h)
      fun b a t' s' _ hresult h' => .bind (ih h') fun bs as t'' s'' _ hresults h'' =>
        .pure (.cons hresult hresults) h''

omit [Field K] [LinearOrder K] in
theorem same_makeManager {layers sequence heads dimension limit : UInt64} {device : Device}
    {m : KVCacheManager (KVCache K)} {m' : KVCacheManager (CudaKVCache K)}
    (hm : KVCacheManager.make K layers sequence heads dimension limit none = .ok m)
    (hm' : KVCacheManager.make K layers sequence heads dimension limit (some ⟨true, device⟩) = .ok m') :
    SameManager ⟨layers.toNat, sequence.toNat, heads.toNat, dimension.toNat, device⟩ m' m := by
  have haccounted := (Admission.orderly_make hm').accounted
  unfold KVCacheManager.make at hm hm'
  obtain ⟨_, hm⟩ := Outcome.throwIf_bind_eq_ok.mp hm
  obtain ⟨prototype, hprototype, hm⟩ := Outcome.bind_eq_ok.mp hm
  obtain ⟨bytes, hbytes, hm⟩ := Outcome.bind_eq_ok.mp hm
  obtain ⟨_, hm⟩ := Outcome.throwIf_bind_eq_ok.mp hm
  obtain rfl := Except.ok.inj hm
  obtain ⟨_, hm'⟩ := Outcome.throwIf_bind_eq_ok.mp hm'
  obtain ⟨prototype', hprototype', hm'⟩ := Outcome.bind_eq_ok.mp hm'
  obtain ⟨bytes', hbytes', hm'⟩ := Outcome.bind_eq_ok.mp hm'
  obtain ⟨_, hm'⟩ := Outcome.throwIf_bind_eq_ok.mp hm'
  obtain rfl := Except.ok.inj hm'
  obtain rfl := Except.ok.inj (hprototype.symm.trans hprototype')
  obtain rfl := Except.ok.inj (hbytes.symm.trans hbytes')
  exact ⟨rfl, ⟨rfl, rfl⟩, ⟨rfl, rfl⟩, ⟨rfl, rfl⟩, ⟨rfl, rfl⟩, rfl, rfl, rfl, rfl, fun _ => .none,
    haccounted⟩

/-- With managers that were made alike: what the host generates, request after request, the device
generates, whatever new tensors hold and in whatever order the threads come. -/
theorem serve_of_host (hcublas : cublas.Documented)
    (hinput : runtime.transformer.block.inputNormalization.Made)
    (hpost : runtime.transformer.block.normalization.Made)
    {layers sequence heads dimension limit : UInt64} {device : Device}
    {m : KVCacheManager (KVCache K)} {m' : KVCacheManager (CudaKVCache K)}
    (hm : KVCacheManager.make K layers sequence heads dimension limit none = .ok m)
    (hm' : KVCacheManager.make K layers sequence heads dimension limit (some ⟨true, device⟩) = .ok m')
    (hlimits : CudaForward.Limits runtime sequence.toNat) (requests : List (Request K))
    {results : List GenerationResult} {s : Host (KVCache K) K}
    (h : Gives (serve (Request.onHost N runtime tokenizer) requests) { manager := m } results s) :
    ∃ results' t, Gives (serve (Request.onDevice cublas N mode device runtime tokenizer) requests)
        { manager := m' } results' t ∧ List.Forall₂ SameResult results' results := by
  have hsame : SameHost ⟨layers.toNat, sequence.toNat, heads.toNat, dimension.toNat, device⟩
      { manager := m' } { manager := m } := ⟨same_makeManager hm hm'⟩
  obtain ⟨results', t, hdevice, hresults, -⟩ :=
    serve_simulates hcublas hinput hpost hlimits requests hsame results s h
  exact ⟨results', t, hdevice, hresults⟩

end

/-! Two prompts for the small model, of which the vocabulary has three tokens. -/

theorem length_smallNorm : [(1 : ℚ), 1].length = 2 := rfl

def smallRuntime : ModelRuntime ℚ where
  architecture := { smallArchitecture with vocabularySize := 3 }
  accepted := rfl
  transformer := smallModel
  compatible := ⟨by decide, rfl, rfl⟩
  embeddingWeights := ⟨3, 2, [1, 2, 0, 1, 3, 1], rfl⟩
  finalNormWeights := [1, 1]
  lmHeadWeights := ⟨2, 3, [1, 0, 1, 0, 1, -1], rfl⟩
  lmHeadLayout := .InputOutput
  tiedEmbeddings := false
  embedding := ⟨rfl, rfl⟩
  finalNorm := length_smallNorm
  lmHead := rfl
  tied h := nomatch h

def smallTokenizer : Tokenizer where
  encode prompt := .ok (prompt.toList.map fun c => c.toNat % 3)
  decode tokens := .ok (String.ofList (tokens.map Char.ofNat))

/-- the larger one of the first two logits -/
def smallSampler : Sampler ℚ :=
  fun _ logits => .ok (if logits.getD 0 0 < logits.getD 1 0 then 1 else 0)

def smallRequests : List (Request ℚ) :=
  [⟨"ab", { maximumNewTokens := 2 }, smallSampler, default⟩,
    ⟨"c", { maximumNewTokens := 1 }, smallSampler, default⟩]

def smallManager (C : Type) (device : Device) : KVCacheManager C :=
  ⟨1, 4, 1, 2, 96, 96, device, 0, 0, 1, ∅⟩

theorem serve_of_host_small : ∃ results s results' t,
    Gives (serve (Request.onHost Runtime.smallNumerics smallRuntime smallTokenizer) smallRequests)
      { manager := smallManager _ .cpu } results s ∧ results.length = 2 ∧
    Gives (serve (Request.onDevice Cublas.elementwise Runtime.smallNumerics .Auto (.cuda 0)
      smallRuntime smallTokenizer) smallRequests) { manager := smallManager _ (.cuda 0) } results' t ∧
    List.Forall₂ SameResult results' results := by
  have hok : ((serve (Request.onHost Runtime.smallNumerics smallRuntime smallTokenizer)
      smallRequests).exec { manager := smallManager _ .cpu }).1.toOption.map List.length = some 2 := by
    decide +kernel
  cases hexec : (serve (Request.onHost Runtime.smallNumerics smallRuntime smallTokenizer)
      smallRequests).exec { manager := smallManager _ .cpu } with
  | mk r s =>
    rw [hexec] at hok
    cases r with
    | error e => exact nomatch hok
    | ok results =>
      have hinput : smallRuntime.transformer.block.inputNormalization.Made := rfl
      have hpost : smallRuntime.transformer.block.normalization.Made := rfl
      have hlimits : CudaForward.Limits smallRuntime (4 : UInt64).toNat :=
        ⟨within_smallModel (by decide) (by decide), by decide⟩
      obtain ⟨results', t, hdevice, hsame⟩ := serve_of_host Cublas.documented_elementwise hinput hpost
        (show KVCacheManager.make ℚ 1 4 1 2 96 none = .ok (smallManager _ .cpu) from rfl)
        (show KVCacheManager.make ℚ 1 4 1 2 96 (some ⟨true, .cuda 0⟩) =
          .ok (smallManager _ (.cuda 0)) from rfl) hlimits smallRequests hexec
      exact ⟨results, s, results', t, hexec, Option.some.inj hok, hdevice, hsame⟩

end HyperMoE.Generation
