import HyperMoE.Generation.Generator

/-!
# What a generation promises

The model may throw wherever it likes; where it returns, every layer of the cache has the tokens it
was given.

* `Appends`                          the assumption on the model;
* `wp_execute`, `wp_appendGenerated`   a pass, and a token more;
* `Kept`, `Logged`, `Steady`         the manager, the events and the session while the loop goes on;
* `wp_loop`                          the loop ends, and how;
* `Contract`, `generate_contract`    the whole, on every exit.
-/

namespace HyperMoE.Generation

open Lib Lib.Fallible

variable {C K : Type} [KVCacheBase C]

/-- `forward` throws, or appends exactly the given tokens to every layer of the cache -/
def Appends (model : GenerationModel C K) : Prop :=
  ∀ context tokens cache pass cache', Gives (model.forward context tokens) cache pass cache' →
    KVCacheBase.maximumSequenceLength cache' = KVCacheBase.maximumSequenceLength cache ∧
    ∀ layer < model.layerCount, ∀ n, KVCacheBase.tokenCount cache layer = .ok n →
      KVCacheBase.tokenCount cache' layer = .ok (n + tokens.length)

/-- the position of the session is the token count of every layer -/
def Synced (model : GenerationModel C K) (s : InferenceSession C K) : Prop :=
  ∀ layer < model.layerCount,
    KVCacheBase.tokenCount s.kvCache layer = .ok s.generationState.currentTokenPosition

/-! ## the generation state -/

section
variable {s : GenerationState}

theorem wp_begin (promptTokens : List TokenId) :
    wp (GenerationState.begin promptTokens) (fun r s' => r = .ok () → s' = { s with
      promptTokens, generatedTokens := [], currentTokenPosition := 0, stopReason := .None
      active := true }) s := by
  unfold GenerationState.begin
  simp only [wp_bind, wp_read, wp_throwIf, wp_update]
  split
  · exact fun h => by cases h
  · exact fun _ => trivial

theorem wp_advancePosition (n : Nat) :
    wp (GenerationState.advancePosition n) (fun r s' => r = .ok () →
      s' = { s with currentTokenPosition := s.currentTokenPosition + n }) s := by
  unfold GenerationState.advancePosition
  simp only [wp_bind, wp_read, wp_throwIf, wp_update]
  split
  · exact fun h => by cases h
  · exact fun _ => trivial

theorem wp_finish (reason : GenerationStopReason) :
    wp (GenerationState.finish reason) (fun r s' => r = .ok () →
      s' = { s with stopReason := reason }) s := by
  unfold GenerationState.finish
  simp only [wp_bind, wp_read, wp_throwIf, wp_update]
  split
  · exact fun h => by cases h
  · exact fun _ => trivial

/-- with a token more -/
def GenerationState.appended (s : GenerationState) (tokenId : TokenId) : GenerationState :=
  { s with
    generatedTokens := s.generatedTokens ++ [tokenId]
    stopReason := if tokenId ∈ s.stopTokenIds then .StopToken
      else if s.generatedTokens.length + 1 = s.maximumNewTokens then .MaximumTokens
      else s.stopReason }

theorem wp_appendGenerated (tokenId : TokenId) :
    wp (GenerationState.appendGenerated tokenId) (fun r s' => ∀ done, r = .ok done →
      s' = s.appended tokenId ∧ (done = true ↔ s'.finished)) s := by
  have hlast : ∀ t : GenerationState, t = s.appended tokenId →
      wp (do
        let s ← read
        return decide s.finished : Fallible Exn GenerationState Bool) (fun r s' => ∀ done, r = .ok done →
          s' = s.appended tokenId ∧ (done = true ↔ s'.finished)) t := by
    rintro t rfl done ⟨⟩
    exact ⟨rfl, decide_eq_true_iff⟩
  unfold GenerationState.appendGenerated
  simp only [wp_bind, wp_read, wp_throwIf, wp_update]
  split
  · exact fun done h => by cases h
  · -- the state that `finish` leaves is the appended one, whatever the reason
    have hreason : ∀ reason, (s.appended tokenId).stopReason = reason →
        { s with generatedTokens := s.generatedTokens ++ [tokenId], stopReason := reason } =
          s.appended tokenId := by
      rintro reason rfl
      rfl
    split
    · next hstop =>
      refine wp_seq (wp_finish .StopToken) ?_ fun e t _ done h => by cases h
      exact fun _ t ht => hlast t ((ht rfl).trans (hreason _ (if_pos hstop)))
    · next hstop =>
      rw [List.length_append, List.length_singleton]
      split
      · next hmax =>
        refine wp_seq (wp_finish .MaximumTokens) ?_ fun e t _ done h => by cases h
        refine fun _ t ht => hlast t ((ht rfl).trans (hreason _ ?_))
        exact (if_neg hstop).trans (if_pos hmax)
      · next hmax =>
        exact hlast _ (hreason _ ((if_neg hstop).trans (if_neg hmax)))

end

/-! ## a pass -/

section
variable {model : GenerationModel C K} {s : InferenceSession C K}

theorem wp_execute {tokenIds : List TokenId} (hmodel : Appends model) (hs : Synced model s) :
    wp (Decoder.execute model tokenIds) (fun r s' => s'.id = s.id ∧ (r = .ok () →
      Synced model s' ∧ s'.generationState = { s.generationState with
        currentTokenPosition := s.generationState.currentTokenPosition + tokenIds.length } ∧
      KVCacheBase.maximumSequenceLength s'.kvCache =
        KVCacheBase.maximumSequenceLength s.kvCache)) s := by
  unfold Decoder.execute
  simp only [wp_bind, wp_read, wp_throwIf]
  split
  · exact ⟨trivial, fun h => by cases h⟩
  · unfold InferenceSession.onCache
    rw [wp_zoom]
    refine wp_mono (Q := fun r cache' => Prod.mk r cache' = (model.forward _ tokenIds).exec s.kvCache)
      rfl ?_
    rintro r cache' hexec
    cases r with
    | error e => exact ⟨rfl, fun h => by cases h⟩
    | ok pass =>
      obtain ⟨hmaximum, hlayers⟩ := hmodel _ _ _ _ _ hexec.symm
      simp only [wp_settle, wp_update]
      generalize Decoder.checkLayers cache' _ _ = checked
      generalize ForwardState.updated pass _ _ = updated
      cases checked with
      | error e => exact ⟨trivial, fun h => by cases h⟩
      | ok _ =>
        cases updated with
        | error e => exact ⟨trivial, fun h => by cases h⟩
        | ok forwardState =>
          simp only [InferenceSession.onGeneration, wp_zoom]
          refine wp_mono (wp_advancePosition tokenIds.length) fun r t ht => ⟨trivial, fun hr => ?_⟩
          obtain rfl := ht hr
          exact ⟨fun layer hlayer => hlayers layer hlayer _ (hs layer hlayer), rfl, hmaximum⟩

theorem wp_prefill {promptTokens : List TokenId} (hmodel : Appends model)
    (hs : ∀ layer < model.layerCount, KVCacheBase.tokenCount s.kvCache layer = .ok 0) :
    wp (Decoder.prefill model promptTokens) (fun r s' => s'.id = s.id ∧ (r = .ok () →
      Synced model s' ∧ s'.generationState = { s.generationState with
        promptTokens, generatedTokens := [], currentTokenPosition := promptTokens.length
        stopReason := .None, active := true } ∧
      KVCacheBase.maximumSequenceLength s'.kvCache =
        KVCacheBase.maximumSequenceLength s.kvCache)) s := by
  unfold Decoder.prefill
  simp only [wp_bind, wp_read, wp_throwIf]
  split
  · exact ⟨trivial, fun h => by cases h⟩
  · split
    · exact ⟨trivial, fun h => by cases h⟩
    · simp only [InferenceSession.onGeneration, wp_zoom]
      refine wp_mono (wp_begin promptTokens) fun r t ht => ?_
      cases r with
      | error e => exact ⟨trivial, fun h => by cases h⟩
      | ok _ =>
        obtain rfl := ht rfl
        refine wp_mono (wp_execute hmodel hs) fun r s' hs' => ⟨hs'.1, fun hr => ?_⟩
        obtain ⟨hsynced, hstate, hmaximum⟩ := hs'.2 hr
        refine ⟨hsynced, hstate.trans ?_, hmaximum⟩
        rw [Nat.zero_add]

theorem wp_decode {tokenId : TokenId} (hmodel : Appends model) (hs : Synced model s) :
    wp (Decoder.decode model tokenId) (fun r s' => s'.id = s.id ∧ (r = .ok () →
      Synced model s' ∧ s'.generationState = { s.generationState with
        currentTokenPosition := s.generationState.currentTokenPosition + 1 } ∧
      KVCacheBase.maximumSequenceLength s'.kvCache =
        KVCacheBase.maximumSequenceLength s.kvCache)) s := by
  unfold Decoder.decode
  simp only [wp_bind, wp_read, wp_throwIf]
  split
  · exact ⟨trivial, fun h => by cases h⟩
  · exact wp_execute hmodel hs

end

/-! ## while the session is in scope -/

section
variable {host : Host C K} {id : KVCacheSessionId} {r : Running C K}

/-- the manager has one session more than the host had -/
structure Kept (host : Host C K) (id : KVCacheSessionId) (r : Running C K) : Prop where
  session_id : r.session.id = id
  present : id ∈ r.manager.sessions
  others : ∀ k ≠ id, r.manager.sessions.lookup k = host.manager.sessions.lookup k
  reserved : r.manager.reservedBytes = host.manager.reservedBytes + host.manager.bytesPerSession
  bytes : r.manager.bytesPerSession = host.manager.bytesPerSession

omit [KVCacheBase C] in
theorem Kept.share {s : InferenceSession C K} (h : Kept host id r) (hs : s.id = id) :
    Kept host id (r.share s) where
  session_id := hs
  present := (AList.mem_insert _).mpr (.inl hs.symm)
  others k hk := by
    show (r.manager.sessions.insert s.id s.kvCache).lookup k = _
    rw [Table.lookup_insert', if_neg (hs ▸ hk)]
    exact h.others k hk
  reserved := h.reserved
  bytes := h.bytes

omit [KVCacheBase C] in
theorem Kept.note (h : Kept host id r) (e : Event C K) : Kept host id (note e r) := { h with }

theorem wp_stats (h : Kept host id r) :
    wp (onManager KVCacheManager.stats) (fun _ r' => Kept host id r' ∧
      r'.session = r.session ∧ r'.log = r.log) r := by
  unfold onManager KVCacheManager.stats
  rw [wp_zoom]
  simp only [wp_bind, wp_read, wp_settle]
  split
  · exact ⟨{ h with }, trivial, trivial⟩
  · exact ⟨h, trivial, trivial⟩

/-! ## the events -/

def Event.isSample : Event C K → Bool
  | .sample _ => true
  | _ => false

/-- the beginning or the end of a session -/
def Event.isLifetime : Event C K → Bool
  | .allocated _ | .released _ => true
  | _ => false

def samples (log : List (Event C K)) : Nat := log.countP Event.isSample

section
variable (log : List (Event C K)) {e : Event C K}

omit [KVCacheBase C] in
theorem samples_sample (s : InferenceSession C K) : samples (log ++ [.sample s]) = samples log + 1 := by
  unfold samples
  rw [List.countP_append]
  rfl

omit [KVCacheBase C] in
theorem samples_other (he : e.isSample = false) : samples (log ++ [e]) = samples log := by
  unfold samples
  rw [List.countP_append, List.countP_singleton, he]
  rfl

omit [KVCacheBase C] in
theorem lifetimes_other (he : e.isLifetime = false) :
    (log ++ [e]).filter Event.isLifetime = log.filter Event.isLifetime := by
  rw [List.filter_append, List.filter_singleton, he]
  exact List.append_nil _

end

/-- what a generation is about: the model, the prompt, the tokens that are asked for, and the length
of the sequence -/
structure Task (C K : Type) where
  model : GenerationModel C K
  promptTokens : List TokenId
  maximumNewTokens : Nat
  stopTokenIds : List TokenId
  maximumSequenceLength : Nat

/-- what the events say: positions and caches agree, the caches suffice, and the loop is not cut off -/
structure Logged (t : Task C K) (log : List (Event C K)) : Prop where
  prefilled : ∀ s, .prefill s ∈ log → s.generationState.active = false ∧
    (∀ layer < t.model.layerCount, KVCacheBase.tokenCount s.kvCache layer = .ok 0) ∧
    t.promptTokens.length ≤ t.maximumSequenceLength
  sampled : ∀ s, .sample s ∈ log → Synced t.model s ∧ s.generationState.currentTokenPosition =
    t.promptTokens.length + s.generationState.generatedTokens.length
  decoded : ∀ s, .decode s ∈ log → ¬ Decoder.rejects s ∧ Synced t.model s ∧
    s.generationState.currentTokenPosition + 1 ≤ t.maximumSequenceLength
  uncut : .cutOff ∉ log
  samples_le : samples log ≤ t.maximumNewTokens

/-- an event that says nothing wrong -/
theorem Logged.note {t : Task C K} {log : List (Event C K)} {e : Event C K} (h : Logged t log)
    (he : Logged t [e]) (hsamples : samples (log ++ [e]) ≤ t.maximumNewTokens) :
    Logged t (log ++ [e]) where
  prefilled s hs := (List.mem_append.mp hs).elim (h.prefilled s) (he.prefilled s)
  sampled s hs := (List.mem_append.mp hs).elim (h.sampled s) (he.sampled s)
  decoded s hs := (List.mem_append.mp hs).elim (h.decoded s) (he.decoded s)
  uncut hs := (List.mem_append.mp hs).elim h.uncut he.uncut
  samples_le := hsamples

/-! ## the loop -/

/-- the session while the loop goes on; the cache is `behind` tokens behind those that are known -/
structure Steady (t : Task C K) (behind : Nat) (r : Running C K) : Prop where
  synced : Synced t.model r.session
  active : r.session.generationState.active = true
  unfinished : ¬ r.session.generationState.finished
  maximumNewTokens : r.session.generationState.maximumNewTokens = t.maximumNewTokens
  stopTokenIds : r.session.generationState.stopTokenIds = t.stopTokenIds
  position : r.session.generationState.currentTokenPosition + behind =
    t.promptTokens.length + r.session.generationState.generatedTokens.length
  room : r.session.generationState.generatedTokens.length < t.maximumNewTokens
  noStop : ∀ token ∈ r.session.generationState.generatedTokens, token ∉ t.stopTokenIds
  counted : samples r.log = r.session.generationState.generatedTokens.length
  capacity : KVCacheBase.maximumSequenceLength r.session.kvCache = t.maximumSequenceLength

/-- the tokens at the end of the loop -/
structure Complete (t : Task C K) (generated : List TokenId) (reason : GenerationStopReason) :
    Prop where
  nonempty : 1 ≤ generated.length
  bounded : generated.length ≤ t.maximumNewTokens
  before : ∀ token ∈ generated.dropLast, token ∉ t.stopTokenIds
  last : ∀ token, generated.getLast? = some token →
    if token ∈ t.stopTokenIds then reason = .StopToken
    else generated.length = t.maximumNewTokens ∧ reason = .MaximumTokens

omit [KVCacheBase C] in
theorem complete_append {t : Task C K} {generated : List TokenId} {token : TokenId}
    {reason : GenerationStopReason} (hroom : generated.length < t.maximumNewTokens)
    (hbefore : ∀ token ∈ generated, token ∉ t.stopTokenIds)
    (hlast : if token ∈ t.stopTokenIds then reason = .StopToken
      else generated.length + 1 = t.maximumNewTokens ∧ reason = .MaximumTokens) :
    Complete t (generated ++ [token]) reason where
  nonempty := by
    rw [List.length_append, List.length_singleton]
    exact Nat.le_add_left 1 _
  bounded := by
    rw [List.length_append, List.length_singleton]
    exact hroom
  before := by
    rw [List.dropLast_concat]
    exact hbefore
  last last hlast' := by
    rw [List.getLast?_concat] at hlast'
    obtain rfl := Option.some.inj hlast'
    rw [List.length_append, List.length_singleton]
    exact hlast

/-- what holds when the loop is left, whichever way -/
structure Left (host : Host C K) (id : KVCacheSessionId) (t : Task C K) (log : List (Event C K))
    (r : Running C K) : Prop where
  kept : Kept host id r
  logged : Logged t r.log
  lifetimes : r.log.filter Event.isLifetime = log.filter Event.isLifetime

omit [KVCacheBase C] in
theorem GenerationState.appended_unfinished {s : GenerationState} {token : TokenId}
    (h : ¬ (s.appended token).finished) :
    token ∉ s.stopTokenIds ∧ s.generatedTokens.length + 1 ≠ s.maximumNewTokens := by
  constructor
  · intro hstop
    exact h (ne_of_eq_of_ne (if_pos hstop) (by decide))
  · intro hmax
    refine h fun hnone => ?_
    by_cases hstop : token ∈ s.stopTokenIds
    · exact absurd ((if_pos hstop).symm.trans hnone) (by decide)
    · exact absurd (((if_neg hstop).trans (if_pos hmax)).symm.trans hnone) (by decide)

omit [KVCacheBase C] in
theorem GenerationState.appended_finished {s : GenerationState} {token : TokenId}
    (hs : ¬ s.finished) (h : (s.appended token).finished) :
    if token ∈ s.stopTokenIds then (s.appended token).stopReason = .StopToken
    else s.generatedTokens.length + 1 = s.maximumNewTokens ∧
      (s.appended token).stopReason = .MaximumTokens := by
  split
  · next hstop => exact if_pos hstop
  · next hstop =>
    by_cases hmax : s.generatedTokens.length + 1 = s.maximumNewTokens
    · exact ⟨hmax, (if_neg hstop).trans (if_pos hmax)⟩
    · exact absurd (ne_of_eq_of_ne ((if_neg hstop).trans (if_neg hmax)).symm h) hs

/-- the generation has finished -/
structure Ended (t : Task C K) (r : Running C K) : Prop where
  counted : samples r.log = r.session.generationState.generatedTokens.length
  complete : Complete t r.session.generationState.generatedTokens
    r.session.generationState.stopReason

theorem logged_sample {t : Task C K} (hlogged : Logged t r.log) (h : Steady t 0 r) :
    Logged t (r.log ++ [.sample r.session]) := by
  refine hlogged.note ⟨?_, ?_, ?_, ?_, Nat.zero_lt_of_lt h.room⟩ ?_
  · exact fun s hs => nomatch List.mem_singleton.mp hs
  · intro s hs
    obtain ⟨⟩ := List.mem_singleton.mp hs
    exact ⟨h.synced, h.position⟩
  · exact fun s hs => nomatch List.mem_singleton.mp hs
  · exact fun hs => nomatch List.mem_singleton.mp hs
  · rw [samples_sample, h.counted]
    exact h.room

theorem logged_decode {t : Task C K} {log : List (Event C K)} {s : InferenceSession C K}
    (hlogged : Logged t log) (hrejects : ¬ Decoder.rejects s) (hsynced : Synced t.model s)
    (hcapacity : s.generationState.currentTokenPosition + 1 ≤ t.maximumSequenceLength) :
    Logged t (log ++ [.decode s]) := by
  refine hlogged.note ⟨?_, ?_, ?_, ?_, Nat.zero_le _⟩
    ((samples_other log (e := .decode s) rfl).symm ▸ hlogged.samples_le)
  · exact fun s hs => nomatch List.mem_singleton.mp hs
  · exact fun s hs => nomatch List.mem_singleton.mp hs
  · intro s hs
    obtain ⟨⟩ := List.mem_singleton.mp hs
    exact ⟨hrejects, hsynced, hcapacity⟩
  · exact fun hs => nomatch List.mem_singleton.mp hs

theorem wp_sampleNext {t : Task C K} (sampler : Sampler K) (hkept : Kept host id r)
    (hlogged : Logged t r.log) (hsteady : Steady t 0 r) :
    wp (sampleNext t.model sampler) (fun res r' => Left host id t r.log r' ∧
      ∀ token done, res = .ok (token, done) → r'.session.generationState.generatedTokens =
        r.session.generationState.generatedTokens ++ [token] ∧
          if done then Ended t r' else Steady t 1 r') r := by
  unfold sampleNext
  rw [wp_bind, wp_read]
  simp only [wp_bind, wp_update, wp_settle]
  cases lastTokenLogits t.model r.session.forwardState with
  | error e => exact ⟨⟨hkept, hlogged, rfl⟩, fun token done h => by cases h⟩
  | ok logits =>
    have hlogged₁ := logged_sample hlogged hsteady
    have hlifetimes₁ := lifetimes_other r.log (e := .sample r.session) rfl
    cases hsampled : sampler r.session.generationState.generatedTokens.length logits with
    | error e =>
      simp only [hsampled]
      exact ⟨⟨hkept.note _, hlogged₁, hlifetimes₁⟩, fun token done h => by cases h⟩
    | ok token =>
      simp only [hsampled, onSession, InferenceSession.onGeneration, wp_zoom]
      refine wp_mono (wp_appendGenerated token) fun res generation hgeneration => ?_
      have hleft : Left host id t r.log ((note (.sample r.session) r).share
          { r.session with generationState := generation }) :=
        ⟨(hkept.note _).share hkept.session_id, hlogged₁, hlifetimes₁⟩
      cases res with
      | error e => exact ⟨hleft, fun token done h => by cases h⟩
      | ok done =>
        obtain ⟨rfl, hdone⟩ := hgeneration done rfl
        refine ⟨hleft, ?_⟩
        rintro token' done' ⟨⟩
        refine ⟨rfl, ?_⟩
        have hcounted : samples (r.log ++ [Event.sample r.session]) =
            (r.session.generationState.generatedTokens ++ [token]).length := by
          rw [samples_sample, hsteady.counted, List.length_append, List.length_singleton]
        split
        · next htrue =>
          have hlast := GenerationState.appended_finished hsteady.unfinished (hdone.mp htrue)
          rw [hsteady.stopTokenIds, hsteady.maximumNewTokens] at hlast
          exact ⟨hcounted, complete_append hsteady.room hsteady.noStop hlast⟩
        · next hfalse =>
          have hunfinished : ¬ (r.session.generationState.appended token).finished :=
            fun h => hfalse (hdone.mpr h)
          obtain ⟨hstop, hmax⟩ := GenerationState.appended_unfinished hunfinished
          rw [hsteady.stopTokenIds] at hstop
          rw [hsteady.maximumNewTokens] at hmax
          refine { hsteady with
            unfinished := hunfinished, position := ?_, room := ?_, noStop := ?_, counted := hcounted }
          · show r.session.generationState.currentTokenPosition + 1 = t.promptTokens.length +
              (r.session.generationState.generatedTokens ++ [token]).length
            rw [List.length_append, ← Nat.add_assoc, ← hsteady.position]
            rfl
          · show (r.session.generationState.generatedTokens ++ [token]).length < _
            rw [List.length_append]
            exact Nat.lt_of_le_of_ne hsteady.room hmax
          · intro token' htoken'
            rcases List.mem_append.mp htoken' with htoken' | htoken'
            · exact hsteady.noStop token' htoken'
            · exact List.mem_singleton.mp htoken' ▸ hstop

theorem wp_decodeNext {t : Task C K} (token : TokenId) (hmodel : Appends t.model)
    (hfits : t.promptTokens.length + (t.maximumNewTokens - 1) ≤ t.maximumSequenceLength)
    (hkept : Kept host id r) (hlogged : Logged t r.log) (hsteady : Steady t 1 r) :
    wp (decodeNext t.model token) (fun res r' => Left host id t r.log r' ∧
      ∀ stats, res = .ok stats → Steady t 0 r' ∧
        r'.session.generationState.generatedTokens = r.session.generationState.generatedTokens) r := by
  have hcapacity : r.session.generationState.currentTokenPosition + 1 ≤ t.maximumSequenceLength := by
    have hposition := hsteady.position
    have hroom := hsteady.room
    omega
  have hrejects : ¬ Decoder.rejects r.session := by
    rintro (hactive | hfinished | hfull)
    · exact absurd (hsteady.active.symm.trans hactive) (by decide)
    · exact hsteady.unfinished hfinished
    · rw [hsteady.capacity] at hfull
      exact absurd hcapacity (Nat.not_le.mpr (Nat.lt_succ_of_le hfull))
  have hlogged₁ := logged_decode hlogged hrejects hsteady.synced hcapacity
  have hlifetimes₁ := lifetimes_other r.log (e := .decode r.session) rfl
  unfold decodeNext
  rw [wp_bind, wp_read]
  simp only [wp_bind, wp_update, onSession, wp_zoom]
  refine wp_mono (wp_decode hmodel hsteady.synced) ?_
  rintro res s ⟨hid, hs⟩
  have hkept₁ := (hkept.note (.decode r.session)).share (hid.trans hkept.session_id)
  cases res with
  | error e => exact ⟨⟨hkept₁, hlogged₁, hlifetimes₁⟩, fun stats h => by cases h⟩
  | ok _ =>
    obtain ⟨hsynced, hstate, hmaximum⟩ := hs rfl
    refine wp_mono (wp_stats hkept₁) ?_
    rintro res r' ⟨hkept', hsession, hlog⟩
    replace hlog : r'.log = r.log ++ [Event.decode r.session] := hlog
    replace hsession : r'.session = s := hsession
    refine ⟨⟨hkept', hlog ▸ hlogged₁, hlog ▸ hlifetimes₁⟩, fun stats _ => ?_⟩
    rw [hsession]
    have hgenerated : s.generationState.generatedTokens =
        r.session.generationState.generatedTokens := by
      have hfield := congrArg GenerationState.generatedTokens hstate
      exact hfield
    refine ⟨⟨hsession ▸ hsynced, ?_, ?_, ?_, ?_, ?_, ?_, ?_, ?_, ?_⟩, hgenerated⟩
    · rw [hsession, hstate]
      exact hsteady.active
    · rw [hsession, hstate]
      exact hsteady.unfinished
    · rw [hsession, hstate]
      exact hsteady.maximumNewTokens
    · rw [hsession, hstate]
      exact hsteady.stopTokenIds
    · rw [hsession, hstate]
      exact hsteady.position
    · rw [hsession, hgenerated]
      exact hsteady.room
    · rw [hsession, hgenerated]
      exact hsteady.noStop
    · rw [hsession, hgenerated, hlog, samples_other r.log rfl]
      exact hsteady.counted
    · rw [hsession, hmaximum]
      exact hsteady.capacity

/-- the loop ends: a token for each unit of fuel, and no more tokens than fuel -/
theorem wp_loop {t : Task C K} (sampler : Sampler K) (hmodel : Appends t.model)
    (hfits : t.promptTokens.length + (t.maximumNewTokens - 1) ≤ t.maximumSequenceLength) :
    ∀ fuel metrics (r : Running C K), Kept host id r → Logged t r.log → Steady t 0 r →
      t.maximumNewTokens ≤ fuel + r.session.generationState.generatedTokens.length →
      wp (loop t.model sampler fuel metrics) (fun res r' => Left host id t r.log r' ∧
        ∀ m, res = .ok m → Ended t r') r := by
  intro fuel
  induction fuel with
  | zero =>
    intro metrics r _ _ hsteady henough
    have hroom := hsteady.room
    omega
  | succ fuel ih =>
    intro metrics r hkept hlogged hsteady henough
    unfold loop
    rw [wp_bind, wp_read]
    simp only []
    rw [if_neg hsteady.unfinished]
    refine wp_seq (wp_sampleNext sampler hkept hlogged hsteady) ?_ ?_
    · rintro ⟨token, done⟩ r₁ ⟨hleft₁, hnext⟩
      obtain ⟨happended, hnext⟩ := hnext token done rfl
      cases done with
      | true => exact ⟨hleft₁, fun m _ => hnext⟩
      | false =>
        have hsteady₁ : Steady t 1 r₁ := hnext
        refine wp_seq (wp_decodeNext token hmodel hfits hleft₁.kept hleft₁.logged hsteady₁) ?_ ?_
        · rintro stats r₂ ⟨hleft₂, hstats⟩
          obtain ⟨hsteady₂, hgenerated⟩ := hstats stats rfl
          refine wp_mono (ih _ r₂ hleft₂.kept hleft₂.logged hsteady₂ ?_) ?_
          · rw [hgenerated, happended, List.length_append, List.length_singleton]
            omega
          · rintro res r' ⟨hleft, hended⟩
            exact ⟨⟨hleft.kept, hleft.logged,
              hleft.lifetimes.trans (hleft₂.lifetimes.trans hleft₁.lifetimes)⟩, hended⟩
        · rintro e r₂ ⟨hleft₂, -⟩
          exact ⟨⟨hleft₂.kept, hleft₂.logged, hleft₂.lifetimes.trans hleft₁.lifetimes⟩,
            fun m h => nomatch h⟩
    · rintro e r₁ ⟨hleft₁, -⟩
      exact ⟨hleft₁, fun m h => nomatch h⟩

end

/-! ## the scope of the session -/

section
variable {model : GenerationModel C K} {m : KVCacheManager C}

/-- a new session, and the manager that has it -/
structure Opened (model : GenerationModel C K) (maximumNewTokens : Nat) (stopTokenIds : List TokenId)
    (m : KVCacheManager C) (s : InferenceSession C K) (m' : KVCacheManager C) : Prop where
  sessions : m'.sessions = m.sessions.insert s.id s.kvCache
  fresh : s.id ∉ m.sessions
  reserved : m'.reservedBytes = m.reservedBytes + m.bytesPerSession
  bytes : m'.bytesPerSession = m.bytesPerSession
  state : s.generationState = { maximumNewTokens, stopTokenIds }
  capacity : KVCacheBase.maximumSequenceLength s.kvCache = m.maximumSequenceLength
  empty : ∀ layer < model.layerCount, KVCacheBase.tokenCount s.kvCache layer = .ok 0

theorem wp_allocateSession : wp KVCacheManager.allocateSession (fun r m' => match r with
    | .ok (id, cache) => m'.sessions = m.sessions.insert id cache ∧ id ∉ m.sessions ∧
      m'.reservedBytes = m.reservedBytes + m.bytesPerSession ∧
      m'.bytesPerSession = m.bytesPerSession ∧
      KVCacheBase.maximumSequenceLength cache = m.maximumSequenceLength ∧
      ∀ layer < m.layerCount, KVCacheBase.tokenCount cache layer = .ok 0
    | .error _ => m'.sessions = m.sessions ∧ m'.reservedBytes = m.reservedBytes) m := by
  unfold KVCacheManager.allocateSession
  simp only [wp_bind, wp_read, wp_throwIf, wp_update, wp_settle]
  split
  · exact ⟨trivial, trivial⟩
  · split
    · exact ⟨trivial, trivial⟩
    · split
      · next cache hmake =>
        split
        · exact ⟨trivial, trivial⟩
        · next hfresh =>
          obtain ⟨hcapacity, hempty⟩ := KVCacheBase.made hmake
          exact ⟨rfl, hfresh, rfl, rfl, hcapacity, hempty⟩
      · exact ⟨trivial, trivial⟩

theorem wp_make (maximumNewTokens : Nat) (stopTokenIds : List TokenId) (device : Device) :
    wp (InferenceSession.make model maximumNewTokens stopTokenIds device) (fun r m' => match r with
      | .ok s => Opened model maximumNewTokens stopTokenIds m s m'
      | .error _ => m'.sessions = m.sessions ∧ m'.reservedBytes = m.reservedBytes) m := by
  unfold InferenceSession.make
  rw [wp_bind, wp_settle]
  cases hstate : GenerationState.make maximumNewTokens stopTokenIds with
  | error e => exact ⟨rfl, rfl⟩
  | ok generationState =>
    simp only [wp_bind, wp_read, wp_throwIf]
    split
    · exact ⟨trivial, trivial⟩
    · next hcompatible =>
      have hlayers : model.layerCount = m.layerCount := by
        by_contra hne
        exact hcompatible (.inl hne)
      refine wp_mono wp_allocateSession fun r m' hr => ?_
      cases r with
      | error e => exact hr
      | ok allocation =>
        obtain ⟨hsessions, hfresh, hreserved, hbytes, hcapacity, hempty⟩ := hr
        refine ⟨hsessions, hfresh, hreserved, hbytes, ?_, hcapacity, hlayers ▸ hempty⟩
        unfold GenerationState.make at hstate
        split at hstate
        · cases hstate
        · exact (Except.ok.inj hstate).symm

end

/-! ## the whole -/

/-- what holds after a generation, whether it returned or threw -/
structure Contract (t : Task C K) (host : Host C K) (res : Except Exn GenerationResult)
    (host' : Host C K) : Prop where
  logged : Logged t host'.log
  ended : ∀ result, res = .ok result → samples host'.log = result.generatedTokens.length ∧
    Complete t result.generatedTokens result.stopReason
  released : host'.log.filter Event.isLifetime = [] ∨
    ∃ id, host'.log.filter Event.isLifetime = [.allocated id, .released id]
  sessions : ∀ id, host'.manager.sessions.lookup id = host.manager.sessions.lookup id
  reserved : host'.manager.reservedBytes = host.manager.reservedBytes

section
variable {t : Task C K} {host : Host C K} {id : KVCacheSessionId} {r : Running C K}

theorem logged_nil (t : Task C K) : Logged t [] where
  prefilled _ hs := nomatch hs
  sampled _ hs := nomatch hs
  decoded _ hs := nomatch hs
  uncut hs := nomatch hs
  samples_le := Nat.zero_le _

/-- an exit before there is a session -/
theorem contract_refused {host' : Host C K} {e : Exn} (hlog : host'.log = [])
    (hsessions : host'.manager.sessions = host.manager.sessions)
    (hreserved : host'.manager.reservedBytes = host.manager.reservedBytes) :
    Contract t host (.error e) host' where
  logged := hlog ▸ logged_nil t
  ended _ h := nomatch h
  released := .inl (by rw [hlog]; rfl)
  sessions id := by rw [hsessions]
  reserved := hreserved

omit [KVCacheBase C] in
/-- the destructor gives back what the session had reserved -/
theorem close_eq (h : Kept host id r) :
    r.close.log = r.log ++ [.released id] ∧
    r.close.manager.reservedBytes = host.manager.reservedBytes ∧
    r.close.manager.sessions = r.manager.sessions.erase id := by
  have hrelease : (KVCacheManager.releaseSession r.session.id).exec r.manager =
      (.ok (), { r.manager with
        sessions := r.manager.sessions.erase r.session.id
        reservedBytes := r.manager.reservedBytes - r.manager.bytesPerSession }) := by
    unfold KVCacheManager.releaseSession
    rw [exec_bind]
    show ((throwIf (r.session.id ∉ r.manager.sessions) _ : Fallible _ _ _) >>= fun _ => _).exec
      r.manager = _
    rw [exec_throwIf_bind, if_neg (not_not_intro (h.session_id ▸ h.present))]
    rfl
  unfold Running.close
  rw [hrelease, h.session_id]
  refine ⟨rfl, ?_, rfl⟩
  show r.manager.reservedBytes - r.manager.bytesPerSession = _
  rw [h.reserved, h.bytes]
  exact Nat.add_sub_cancel _ _

theorem Left.contract {log : List (Event C K)} {res : Except Exn GenerationResult}
    (h : Left host id t log r) (hlog : log.filter Event.isLifetime = [.allocated id])
    (hfresh : id ∉ host.manager.sessions)
    (hended : ∀ result, res = .ok result → samples r.log = result.generatedTokens.length ∧
      Complete t result.generatedTokens result.stopReason) : Contract t host res r.close := by
  obtain ⟨hclosed, hreserved, hsessions⟩ := close_eq h.kept
  have hsamples := samples_other r.log (e := .released id) rfl
  refine ⟨?_, fun result hres => ?_, .inr ⟨id, ?_⟩, fun k => ?_, hreserved⟩
  · rw [hclosed]
    refine h.logged.note ⟨?_, ?_, ?_, ?_, Nat.zero_le _⟩ (hsamples ▸ h.logged.samples_le)
    · exact fun s hs => nomatch List.mem_singleton.mp hs
    · exact fun s hs => nomatch List.mem_singleton.mp hs
    · exact fun s hs => nomatch List.mem_singleton.mp hs
    · exact fun hs => nomatch List.mem_singleton.mp hs
  · rw [hclosed, hsamples]
    exact hended result hres
  · rw [hclosed, List.filter_append, h.lifetimes, hlog]
    rfl
  · rw [hsessions, Table.lookup_erase']
    split
    · next hk =>
      rw [hk]
      exact (AList.lookup_eq_none.mpr hfresh).symm
    · next hk => exact h.kept.others k hk

theorem logged_prefill (hlog : r.log = [.allocated id])
    (hstate : r.session.generationState.active = false)
    (hempty : ∀ layer < t.model.layerCount, KVCacheBase.tokenCount r.session.kvCache layer = .ok 0)
    (hprompt : t.promptTokens.length ≤ t.maximumSequenceLength) :
    Logged t (r.log ++ [.prefill r.session]) := by
  rw [hlog]
  refine ⟨fun s hs => ?_, fun s hs => ?_, fun s hs => ?_, fun hs => ?_, Nat.zero_le _⟩
  · rcases List.mem_cons.mp hs with hs | hs
    · exact nomatch hs
    · obtain ⟨⟩ := List.mem_singleton.mp hs
      exact ⟨hstate, hempty, hprompt⟩
  all_goals
    rcases List.mem_cons.mp hs with hs | hs
    · exact nomatch hs
    · exact nomatch List.mem_singleton.mp hs

theorem wp_generateIn (tokenizer : Tokenizer) (sampler : Sampler K)
    (hmodel : Appends t.model) (hne : 0 < t.maximumNewTokens)
    (hfits : t.promptTokens.length + (t.maximumNewTokens - 1) ≤ t.maximumSequenceLength)
    (hkept : Kept host id r) (hlog : r.log = [.allocated id])
    (hstate : r.session.generationState =
      { maximumNewTokens := t.maximumNewTokens, stopTokenIds := t.stopTokenIds })
    (hcapacity : KVCacheBase.maximumSequenceLength r.session.kvCache = t.maximumSequenceLength)
    (hempty : ∀ layer < t.model.layerCount, KVCacheBase.tokenCount r.session.kvCache layer = .ok 0) :
    wp (generateIn tokenizer t.model sampler t.maximumNewTokens t.promptTokens) (fun res r' =>
      Left host id t r.log r' ∧ ∀ result, res = .ok result →
        samples r'.log = result.generatedTokens.length ∧
          Complete t result.generatedTokens result.stopReason) r := by
  have hlogged₁ := logged_prefill hlog (congrArg GenerationState.active hstate) hempty
    (Nat.le_trans (Nat.le_add_right _ _) hfits)
  have hlifetimes₁ := lifetimes_other r.log (e := .prefill r.session) rfl
  have hsamples₁ : samples (r.log ++ [Event.prefill r.session]) = 0 := by
    rw [hlog]
    rfl
  unfold generateIn
  rw [wp_bind, wp_read]
  simp only [wp_bind, wp_update, onSession, wp_zoom]
  refine wp_mono (wp_prefill hmodel hempty) ?_
  rintro res s ⟨hid, hs⟩
  have hkept₁ := (hkept.note (.prefill r.session)).share (hid.trans hkept.session_id)
  cases res with
  | error e => exact ⟨⟨hkept₁, hlogged₁, hlifetimes₁⟩, fun result h => by cases h⟩
  | ok _ =>
    obtain ⟨hsynced, hbegun, hmaximum⟩ := hs rfl
    refine wp_mono (wp_stats hkept₁) ?_
    rintro res r₁ ⟨hkept₁, hsession, hlog₁⟩
    replace hlog₁ : r₁.log = r.log ++ [Event.prefill r.session] := hlog₁
    replace hsession : r₁.session = s := hsession
    have hleft₁ : Left host id t r.log r₁ := ⟨hkept₁, hlog₁ ▸ hlogged₁, hlog₁ ▸ hlifetimes₁⟩
    cases res with
    | error e => exact ⟨hleft₁, fun result h => by cases h⟩
    | ok stats =>
      have hsteady : Steady t 0 r₁ := by
        replace hbegun : r₁.session.generationState = { r.session.generationState with
            promptTokens := t.promptTokens, generatedTokens := []
            currentTokenPosition := t.promptTokens.length, stopReason := .None, active := true } :=
          hsession ▸ hbegun
        rw [hstate] at hbegun
        refine ⟨hsession ▸ hsynced, ?_, ?_, ?_, ?_, ?_, ?_, ?_, ?_, ?_⟩
        · rw [hbegun]
        · rw [hbegun]
          exact not_not_intro rfl
        · rw [hbegun]
        · rw [hbegun]
        · rw [hbegun]
          rfl
        · rw [hbegun]
          exact hne
        · rw [hbegun]
          exact fun token h => by cases h
        · rw [hbegun, hlog₁]
          exact hsamples₁
        · rw [hsession]
          exact hmaximum.trans hcapacity
      refine wp_mono (wp_loop sampler hmodel hfits _ _ r₁ hkept₁ hleft₁.logged hsteady
        (Nat.le_add_right _ _)) ?_
      rintro res r₂ ⟨hleft₂, hended⟩
      have hleft : Left host id t r.log r₂ :=
        ⟨hleft₂.kept, hleft₂.logged, hleft₂.lifetimes.trans hleft₁.lifetimes⟩
      cases res with
      | error e => exact ⟨hleft, fun result h => by cases h⟩
      | ok metrics =>
        simp only [wp_read, wp_settle]
        cases tokenizer.decode r₂.session.generationState.generatedTokens with
        | error e => exact ⟨hleft, fun result h => by cases h⟩
        | ok text =>
          refine ⟨hleft, ?_⟩
          rintro result ⟨⟩
          exact ⟨(hended metrics rfl).counted, (hended metrics rfl).complete⟩

omit [KVCacheBase C] in
/-- the code of a scope, and the destructor behind it -/
theorem wp_scope {α : Type} (x : Fallible Exn (Running C K) α) (session : InferenceSession C K)
    {Q : Except Exn α → Host C K → Prop} :
    wp (fun host => match x ⟨host, session⟩ with | (r, s) => (r, s.close)) Q host ↔
      wp x (fun r s => Q r s.close) ⟨host, session⟩ := Iff.rfl

/-- every generation, with every model that appends what it is given, every sampler and every manager -/
theorem generate_contract {model : GenerationModel C K} (hmodel : Appends model)
    (tokenizer : Tokenizer) (sampler : Sampler K) (prompt : String) (config : GenerationConfig)
    (manager : KVCacheManager C) {promptTokens : List TokenId}
    (hprompt : tokenizer.encode prompt = .ok promptTokens) :
    wp (generate tokenizer model sampler prompt config) (fun res host' =>
      Contract ⟨model, promptTokens, config.maximumNewTokens, config.stopTokenIds,
        manager.maximumSequenceLength⟩ ⟨manager, []⟩ res host') ⟨manager, []⟩ := by
  unfold generate
  rw [wp_bind, wp_settle]
  cases config.sampling.validate model.vocabularySize with
  | error e => exact contract_refused rfl rfl rfl
  | ok _ =>
    simp only [wp_bind, wp_read, wp_throwIf, wp_settle]
    split
    · exact contract_refused rfl rfl rfl
    · next hne =>
      split
      · exact contract_refused rfl rfl rfl
      · rw [hprompt]
        simp only []
        split
        · exact contract_refused rfl rfl rfl
        · next hfits =>
          rw [not_or, not_or] at hfits
          obtain ⟨-, hlength, hroom⟩ := hfits
          replace hlength : promptTokens.length ≤ manager.maximumSequenceLength :=
            Nat.le_of_not_lt hlength
          replace hroom : config.maximumNewTokens - 1 ≤
            manager.maximumSequenceLength - promptTokens.length := Nat.le_of_not_lt hroom
          unfold inScope
          rw [wp_bind, wp_zoom]
          refine wp_mono (wp_make config.maximumNewTokens config.stopTokenIds config.device) ?_
          intro res m hres
          cases res with
          | error e => exact contract_refused rfl hres.1 hres.2
          | ok session =>
            simp only [wp_bind, wp_update]
            have hkept : Kept ⟨manager, []⟩ session.id
                (⟨⟨m, [.allocated session.id]⟩, session⟩ : Running C K) := by
              refine ⟨rfl, ?_, fun k hk => ?_, hres.reserved, hres.bytes⟩
              · show session.id ∈ m.sessions
                rw [hres.sessions]
                exact (AList.mem_insert _).mpr (.inl rfl)
              · show m.sessions.lookup k = manager.sessions.lookup k
                rw [hres.sessions, Table.lookup_insert', if_neg hk]
            have hscope := wp_generateIn (t := ⟨model, promptTokens, config.maximumNewTokens,
                config.stopTokenIds, manager.maximumSequenceLength⟩) tokenizer sampler hmodel
              (Nat.pos_of_ne_zero hne) (Nat.add_le_of_le_sub' hlength hroom) hkept rfl hres.state
              hres.capacity hres.empty
            refine (wp_scope (generateIn tokenizer model sampler config.maximumNewTokens promptTokens)
              session).mpr (wp_mono hscope ?_)
            rintro res r ⟨hleft, hended⟩
            exact hleft.contract rfl hres.fresh hended

end

/-! ## a run -/

/-- one layer, one head, two tokens of vocabulary; every pass appends, and answers nothing -/
def idleModel : GenerationModel (Transformer.KVCache Unit) Unit where
  vocabularySize := 2
  hiddenDimension := 1
  layerCount := 1
  keyValueHeads := 1
  headDimension := 1
  device := .cpu
  materializeHost := fun _ => .ok []
  forward context tokens := do
    let view : Transformer.HeadView Unit := ⟨tokens.length, 1, 1, List.replicate tokens.length (),
      by rw [List.length_replicate, Nat.mul_one, Nat.mul_one]⟩
    mapError ofStdError (Transformer.KVCache.append 0 context.sequencePosition view view)
    return {
      hiddenStates := ⟨true, [tokens.length, 1], true, true, []⟩
      logits := ⟨true, [tokens.length, 2], true, true, []⟩
      finalLayer := 0
      routing := List.replicate tokens.length ⟨0, [0], [()]⟩ }

theorem appends_idleModel : Appends idleModel := by
  intro context tokens cache pass cache' h
  obtain ⟨_, cache₁, happend, hpass⟩ := gives_bind.mp h
  obtain ⟨-, rfl⟩ := gives_pure.mp hpass
  have hextended := Transformer.KVCache.gives_append.mp (gives_mapError.mp happend)
  refine ⟨hextended.maximum, fun layer hlayer n hn => ?_⟩
  obtain rfl : layer = 0 := Nat.lt_one_iff.mp hlayer
  have hlt := hextended.layer_lt
  replace hn : (if 0 ≥ cache.layers.length then .error (.outOfRange "KV cache layer is invalid")
    else .ok (cache.layer 0).positions.length : Except Exn Nat) = .ok n := hn
  rw [if_neg (Nat.not_le.mpr hlt)] at hn
  obtain rfl := Except.ok.inj hn
  have hlayer₀ : (cache₁.layer 0).positions.length =
      (cache.layer 0).positions.length + tokens.length := by
    unfold Transformer.KVCache.layer
    rw [hextended.layers, Transformer.getD_set _ _ _ hlt, if_pos rfl]
    show (_ ++ (List.range tokens.length).map _).length = _
    rw [List.length_append, List.length_map, List.length_range]
    rfl
  show (if 0 ≥ cache₁.layers.length then .error (.outOfRange "KV cache layer is invalid")
    else .ok (cache₁.layer 0).positions.length : Except Exn Nat) = _
  rw [hlayer₀, hextended.layers, List.length_set, if_neg (Nat.not_le.mpr hlt)]

def idleManager : KVCacheManager (Transformer.KVCache Unit) := ⟨1, 4, 1, 1, 64, 64, .cpu, 0, 0, 1, ∅⟩

/-- token one, and then the stop token -/
def idleRun : Fallible Exn (Host (Transformer.KVCache Unit) Unit) GenerationResult :=
  generate ⟨fun _ => .ok [0], fun _ => .ok ""⟩ idleModel (fun i _ => .ok (1 - i)) ""
    { maximumNewTokens := 3, stopTokenIds := [0] }

theorem generate_contract_two_tokens : ∃ result,
    (idleRun.exec ⟨idleManager, []⟩).1 = .ok result ∧ result.generatedTokens = [1, 0] ∧
    Contract ⟨idleModel, [0], 3, [0], 4⟩ ⟨idleManager, []⟩ (.ok result)
      (idleRun.exec ⟨idleManager, []⟩).2 := by
  have hrun : ∃ result, (idleRun.exec ⟨idleManager, []⟩).1 = .ok result ∧
    result.generatedTokens = [1, 0] := ⟨_, rfl, rfl⟩
  obtain ⟨result, hrun, hgenerated⟩ := hrun
  have hcontract : wp idleRun (fun res host' =>
      Contract ⟨idleModel, [0], 3, [0], 4⟩ ⟨idleManager, []⟩ res host') ⟨idleManager, []⟩ :=
    generate_contract appends_idleModel ⟨fun _ => .ok [0], fun _ => .ok ""⟩
      (fun i _ => .ok (1 - i)) "" { maximumNewTokens := 3, stopTokenIds := [0] } idleManager rfl
  rw [wp_def, hrun] at hcontract
  exact ⟨result, hrun, hgenerated, hcontract⟩

end HyperMoE.Generation
