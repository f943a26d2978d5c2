import Mathlib.Algebra.Order.BigOperators.Group.List
import HyperMoE.Lib.Outcome
import HyperMoE.Transformer.CacheRefinement

/-!
# An append, statement by statement

`CudaKVCache::append` again, so that one can look at the memory while it is at work: an append that
makes a layer larger has the old and the expanded tensors at once.

* `Phase`, `Appending`     where an append is, and the tensors that are its own;
* `enter`, `advance`       its checks, and its next statement;
* `exec_append`            run to the end, it is `append`;
* `Growing.bytes`          the tensors of a cache and of the append that holds its mutex;
* `Growing.Fits`           no tensor is longer than the sequence may be;
* `Fits.bytes_le`          with the largest append, a cache is at most one layer larger.
-/

namespace HyperMoE.Transformer

open Lib Lib.Fallible Tensor

variable {K : Type}

/-- an expanded tensor belongs to the call until it is moved into the storage -/
inductive Phase (K : Type) where
  | allocateKeys
  | allocateValues (expandedKeys : Option (List K))
  | copy (expandedKeys expandedValues : Option (List K))
  | moveKeys (expandedKeys expandedValues : Option (List K))
  | moveValues (expandedValues : Option (List K))
  | store

structure Appending (K : Type) where
  layer : Nat
  first : Nat
  keys : HeadView K
  values : HeadView K
  capacity : Nat
  phase : Phase K

namespace CudaKVCache

/-- up to the first allocation -/
def enter (layer first : Nat) (keys values : HeadView K) (c : CudaKVCache K) :
    Except StdError (Appending K) := do
  Outcome.throwIf (layer ≥ c.layers.length ∨ ¬ (keys.tokens = values.tokens ∧
      keys.heads = values.heads ∧ keys.dimension = values.dimension) ∨
      keys.heads ≠ c.keyValueHeads ∨ keys.dimension ≠ c.headDimension)
    (.invalid_argument "CUDA KV cache append metadata is incompatible")
  let s := c.storage layer
  Outcome.throwIf (first ≠ s.tokens ∨ keys.tokens > c.maximumSequenceLength - s.tokens)
    (.invalid_argument "CUDA KV cache append exceeds contiguous capacity")
  let required := s.tokens + keys.tokens
  if s.capacity < required then
    match grow c.maximumSequenceLength required required (max 1 s.capacity) with
    | none => .error (.runtime_error "out of fuel")
    | some capacity => .ok ⟨layer, first, keys, values, capacity, .allocateKeys⟩
  else .ok ⟨layer, first, keys, values, s.capacity, .store⟩

/-- the copies into the expanded tensors -/
def expand (s : DeviceStorage K) (count : Nat) (expandedKeys expandedValues : Option (List K)) :
    Except StdError (Option (List K) × Option (List K)) :=
  if s.tokens ≠ 0 then do
    let oldKeys ← copyFrom s.keys 0 count
    let expandedKeys ← copyInto expandedKeys 0 oldKeys
    let oldValues ← copyFrom s.values 0 count
    let expandedValues ← copyInto expandedValues 0 oldValues
    return (expandedKeys, expandedValues)
  else return (expandedKeys, expandedValues)

/-- the next statement; `none` when the call returns -/
def advance (fresh : Fresh K) (a : Appending K) :
    Fallible StdError (CudaKVCache K) (Option (Phase K)) := do
  let c ← read
  let s := c.storage a.layer
  match a.phase with
  | .allocateKeys =>
    let count := a.capacity * c.keyValueHeads * c.headDimension
    return some (.allocateValues (some (allocateTensor fresh.keys count)))
  | .allocateValues expandedKeys =>
    let count := a.capacity * c.keyValueHeads * c.headDimension
    return some (.copy expandedKeys (some (allocateTensor fresh.values count)))
  | .copy expandedKeys expandedValues =>
    let count := s.tokens * c.keyValueHeads * c.headDimension
    let (expandedKeys, expandedValues) ← settle (expand s count expandedKeys expandedValues)
    return some (.moveKeys expandedKeys expandedValues)
  | .moveKeys expandedKeys expandedValues =>
    update (put a.layer { s with keys := expandedKeys })
    return some (.moveValues expandedValues)
  | .moveValues expandedValues =>
    update (put a.layer { s with values := expandedValues, capacity := a.capacity })
    return some .store
  | .store =>
    store a.layer a.first (s.tokens + a.keys.tokens) a.keys a.values
    return none

/-- the statements that are left -/
def finish (fresh : Fresh K) : Nat → Appending K → Fallible StdError (CudaKVCache K) Unit
  | 0, _ => throw (.runtime_error "out of fuel")
  | fuel + 1, a => do
    match ← advance fresh a with
    | none => return
    | some phase => finish fresh fuel { a with phase }

/-! ## run to the end, it is `append` -/

section
variable {fresh : Fresh K} {a : Appending K} {c : CudaKVCache K}

theorem exec_finish (fuel : Nat) : (finish fresh (fuel + 1) a).exec c =
    match (advance fresh a).exec c with
    | (.ok none, c') => (.ok (), c')
    | (.ok (some phase), c') => (finish fresh fuel { a with phase }).exec c'
    | (.error e, c') => (.error e, c') := by
  show ((advance fresh a >>= _) : Fallible _ _ _).exec c = _
  rw [exec_bind]
  rcases (advance fresh a).exec c with ⟨e | phase, c'⟩
  · rfl
  · cases phase <;> rfl

theorem exec_finish_store (fuel : Nat) (ha : a.phase = .store) :
    (finish fresh (fuel + 1) a).exec c = (store a.layer a.first
      ((c.storage a.layer).tokens + a.keys.tokens) a.keys a.values).exec c := by
  rw [exec_finish]
  have hadvance : (advance fresh a).exec c = (do
      store a.layer a.first ((c.storage a.layer).tokens + a.keys.tokens) a.keys a.values
      return none : Fallible StdError (CudaKVCache K) (Option (Phase K))).exec c := by
    unfold advance
    rw [ha]
    rfl
  rw [hadvance, exec_bind]
  rcases (store a.layer a.first ((c.storage a.layer).tokens + a.keys.tokens) a.keys
    a.values).exec c with ⟨e | u, c'⟩ <;> rfl

theorem exec_advance_copy {expandedKeys expandedValues : Option (List K)}
    (ha : a.phase = .copy expandedKeys expandedValues) : (advance fresh a).exec c =
      ((expand (c.storage a.layer) ((c.storage a.layer).tokens * c.keyValueHeads * c.headDimension)
        expandedKeys expandedValues).map fun tensors => some (.moveKeys tensors.1 tensors.2), c) := by
  unfold advance
  rw [ha]
  show ((settle (expand _ _ expandedKeys expandedValues) >>= _ : Fallible _ _ _)).exec c = _
  rcases expand (c.storage a.layer) ((c.storage a.layer).tokens * c.keyValueHeads *
    c.headDimension) expandedKeys expandedValues with e | tensors <;> rfl

theorem enlarge_eq (capacity heads dimension : Nat) (s : DeviceStorage K) :
    enlarge fresh capacity heads dimension s = (expand s (s.tokens * heads * dimension)
      (some (allocateTensor fresh.keys (capacity * heads * dimension)))
      (some (allocateTensor fresh.values (capacity * heads * dimension)))).map fun tensors =>
        { s with keys := tensors.1, values := tensors.2, capacity } := by
  unfold enlarge expand
  dsimp only
  split
  · rcases copyFrom s.keys 0 (s.tokens * heads * dimension) with e | oldKeys
    · rfl
    show (copyInto _ 0 oldKeys >>= _) = Except.map _ (copyInto _ 0 oldKeys >>= _)
    rcases copyInto (some (allocateTensor fresh.keys (capacity * heads * dimension))) 0 oldKeys
      with e | expandedKeys
    · rfl
    show (copyFrom s.values 0 _ >>= _) = Except.map _ (copyFrom s.values 0 _ >>= _)
    rcases copyFrom s.values 0 (s.tokens * heads * dimension) with e | oldValues
    · rfl
    show (copyInto _ 0 oldValues >>= _) = Except.map _ (copyInto _ 0 oldValues >>= _)
    rcases copyInto (some (allocateTensor fresh.values (capacity * heads * dimension))) 0 oldValues
      with e | expandedValues <;> rfl
  · rfl

/-- the statements that make a layer larger, and what follows -/
theorem exec_finish_grow (ha : a.phase = .allocateKeys) (hlayer : a.layer < c.layers.length) :
    (finish fresh 6 a).exec c = match enlarge fresh a.capacity c.keyValueHeads c.headDimension
        (c.storage a.layer) with
      | .error e => (.error e, c)
      | .ok s => (store a.layer a.first (s.tokens + a.keys.tokens) a.keys a.values).exec
          (c.put a.layer s) := by
  obtain ⟨layer, first, keys, values, capacity, phase⟩ := a
  obtain rfl : phase = .allocateKeys := ha
  rw [exec_finish, show (advance fresh _).exec c = (.ok (some _), c) from rfl]
  dsimp only
  rw [exec_finish, show (advance fresh _).exec c = (.ok (some _), c) from rfl]
  dsimp only
  rw [exec_finish, exec_advance_copy rfl, enlarge_eq]
  cases hexpand : expand (c.storage layer) ((c.storage layer).tokens * c.keyValueHeads *
      c.headDimension) (some (allocateTensor fresh.keys (capacity * c.keyValueHeads *
        c.headDimension))) (some (allocateTensor fresh.values (capacity * c.keyValueHeads *
          c.headDimension))) with
  | error e => rfl
  | ok tensors =>
    dsimp only [Except.map]
    rw [exec_finish, show (advance fresh _).exec c = (.ok (some _), put layer
      { c.storage layer with keys := tensors.1 } c) from rfl]
    dsimp only
    rw [exec_finish, show (advance fresh _).exec (put layer { c.storage layer with
      keys := tensors.1 } c) = (.ok (some .store), _) from rfl]
    dsimp only
    rw [exec_finish_store 0 rfl, storage_put _ hlayer, put_put, storage_put _ hlayer]

theorem exec_provide {layer required : Nat} :
    (provide fresh layer required).exec c =
      if (c.storage layer).capacity < required then
        match grow c.maximumSequenceLength required required (max 1 (c.storage layer).capacity) with
        | none => (.error (.runtime_error "out of fuel"), c)
        | some capacity => match enlarge fresh capacity c.keyValueHeads c.headDimension
            (c.storage layer) with
          | .error e => (.error e, c)
          | .ok s => (.ok (), c.put layer s)
      else (.ok (), c) := by
  unfold provide
  rw [exec_bind, show (read : Fallible StdError (CudaKVCache K) _).exec c = (.ok c, c) from rfl]
  dsimp only
  split
  · cases grow c.maximumSequenceLength required required (max 1 (c.storage layer).capacity) with
    | none => rfl
    | some capacity =>
      rw [exec_bind, show (orThrow (some capacity) _ : Fallible StdError (CudaKVCache K) _).exec c =
        (.ok capacity, c) from rfl]
      dsimp only
      rw [exec_bind]
      cases enlarge fresh capacity c.keyValueHeads c.headDimension (c.storage layer) <;> rfl
  · rfl

/-- the call, apart from its checks -/
theorem exec_provide_store {layer first : Nat} {keys values : HeadView K}
    (hlayer : layer < c.layers.length) :
    (provide fresh layer ((c.storage layer).tokens + keys.tokens) >>= fun _ =>
      store layer first ((c.storage layer).tokens + keys.tokens) keys values).exec c =
      if (c.storage layer).capacity < (c.storage layer).tokens + keys.tokens then
        match grow c.maximumSequenceLength ((c.storage layer).tokens + keys.tokens)
          ((c.storage layer).tokens + keys.tokens) (max 1 (c.storage layer).capacity) with
        | none => (.error (.runtime_error "out of fuel"), c)
        | some capacity => (finish fresh 6 ⟨layer, first, keys, values, capacity, .allocateKeys⟩).exec c
      else (finish fresh 6 ⟨layer, first, keys, values, (c.storage layer).capacity, .store⟩).exec c := by
  rw [exec_bind, exec_provide]
  by_cases hroom : (c.storage layer).capacity < (c.storage layer).tokens + keys.tokens
  · rw [if_pos hroom, if_pos hroom]
    cases grow c.maximumSequenceLength ((c.storage layer).tokens + keys.tokens)
      ((c.storage layer).tokens + keys.tokens) (max 1 (c.storage layer).capacity) with
    | none => rfl
    | some capacity =>
      dsimp only
      rw [exec_finish_grow rfl hlayer]
      dsimp only
      cases henlarge : enlarge fresh capacity c.keyValueHeads c.headDimension (c.storage layer) with
      | error e => rfl
      | ok s =>
        have htokens : s.tokens = (c.storage layer).tokens := by
          rw [enlarge_eq, Outcome.map_eq_ok] at henlarge
          obtain ⟨tensors, -, rfl⟩ := henlarge
          rfl
        dsimp only
        rw [htokens]
  · rw [if_neg hroom, if_neg hroom, exec_finish_store 5 rfl]

/-- run to the end, the statements are `append` -/
theorem exec_append (layer first : Nat) (keys values : HeadView K) (fresh : Fresh K)
    (c : CudaKVCache K) : (append layer first keys values fresh).exec c =
      match c.enter layer first keys values with
      | .error e => (.error e, c)
      | .ok a => (finish fresh 6 a).exec c := by
  unfold append enter
  rw [exec_bind, show (read : Fallible StdError (CudaKVCache K) _).exec c = (.ok c, c) from rfl]
  dsimp only
  rw [exec_throwIf_bind]
  split
  · next hmetadata =>
    rw [Outcome.throwIf, if_pos hmetadata]
    rfl
  next hmetadata =>
  rw [Outcome.throwIf_bind_of_not hmetadata, exec_throwIf_bind]
  split
  · next hcapacity =>
    rw [Outcome.throwIf, if_pos hcapacity]
    rfl
  next hcapacity =>
  rw [Outcome.throwIf_bind_of_not hcapacity,
    exec_provide_store (Nat.lt_of_not_le fun h => hmetadata (.inl h))]
  by_cases hroom : (c.storage layer).capacity < (c.storage layer).tokens + keys.tokens
  · rw [if_pos hroom, if_pos hroom]
    cases grow c.maximumSequenceLength ((c.storage layer).tokens + keys.tokens)
      ((c.storage layer).tokens + keys.tokens) (max 1 (c.storage layer).capacity) <;> rfl
  · rw [if_neg hroom, if_neg hroom]

end

/-! ## bytes of tensors -/

def tensorBytes (tensor : Option (List K)) : Nat := tensor.elim 0 (·.length * 4)

theorem bytes_copyInto {tensor tensor' : Option (List K)} {offsetBytes : Nat} {source : List K}
    (h : copyInto tensor offsetBytes source = .ok tensor') : tensorBytes tensor' = tensorBytes tensor := by
  unfold copyInto at h
  obtain ⟨⟨elements, first⟩, hslice, h⟩ := Outcome.bind_eq_ok.mp h
  obtain rfl := Except.ok.inj h
  unfold sliceBytes at hslice
  cases tensor with
  | none => exact nomatch hslice
  | some elements' =>
    dsimp only at hslice
    split at hslice
    · exact nomatch hslice
    split at hslice
    · exact nomatch hslice
    split at hslice
    · exact nomatch hslice
    split at hslice
    · exact nomatch hslice
    obtain ⟨rfl, rfl⟩ := Prod.mk.inj (Except.ok.inj hslice)
    show (elements'.take (offsetBytes / 4) ++ (source ++ elements'.drop _)).length * 4 =
      elements'.length * 4
    rw [List.length_append, List.length_append, List.length_take, List.length_drop]
    omega

theorem bytes_allocateTensor (memory : Nat → K) (count : Nat) :
    tensorBytes (some (allocateTensor memory count)) = count * 4 := by
  show (List.map _ _).length * 4 = _
  rw [List.length_map, List.length_range]

/-! ## what a cache may have -/

/-- a layer with at most `maximum` tokens, each tensor with at most `room` bytes -/
structure Contained (maximum room : Nat) (s : DeviceStorage K) : Prop where
  capacity : s.capacity ≤ maximum
  keys : tensorBytes s.keys ≤ room
  values : tensorBytes s.values ≤ room

/-- the extents of a cache -/
structure Extent where
  layers : Nat
  maximum : Nat
  heads : Nat
  dimension : Nat

/-- the bytes of a tensor of a layer, at most -/
def Extent.room (e : Extent) : Nat := e.maximum * e.heads * e.dimension * 4

structure Roomy (e : Extent) (c : CudaKVCache K) : Prop where
  layers : c.layers.length = e.layers
  maximum : c.maximumSequenceLength = e.maximum
  heads : c.keyValueHeads = e.heads
  dimension : c.headDimension = e.dimension
  storage : ∀ s ∈ c.layers, Contained e.maximum e.room s

section
variable {e : Extent} {c : CudaKVCache K} {s : DeviceStorage K}

theorem contained_empty (maximum room : Nat) : Contained maximum room ({} : DeviceStorage K) :=
  ⟨Nat.zero_le _, Nat.zero_le _, Nat.zero_le _⟩

theorem Roomy.layer (h : Roomy e c) (layer : Nat) : Contained e.maximum e.room (c.storage layer) := by
  unfold CudaKVCache.storage
  rcases Nat.lt_or_ge layer c.layers.length with hlayer | hlayer
  · rw [List.getD_eq_getElem _ _ hlayer]
    exact h.storage _ (List.getElem_mem hlayer)
  · rw [List.getD_eq_default _ _ hlayer]
    exact contained_empty _ _

theorem Roomy.put (h : Roomy e c) (layer : Nat) (hs : Contained e.maximum e.room s) :
    Roomy e (c.put layer s) where
  layers := List.length_set.trans h.layers
  maximum := h.maximum
  heads := h.heads
  dimension := h.dimension
  storage s' hs' := by
    rcases List.mem_or_eq_of_mem_set hs' with hs' | rfl
    · exact h.storage s' hs'
    · exact hs

/-- the tensors of the call -/
def phaseTensors : Phase K → List (Option (List K))
  | .allocateKeys | .store => []
  | .allocateValues expandedKeys => [expandedKeys]
  | .copy expandedKeys expandedValues | .moveKeys expandedKeys expandedValues =>
    [expandedKeys, expandedValues]
  | .moveValues expandedValues => [expandedValues]

structure AppendFits (e : Extent) (a : Appending K) : Prop where
  capacity : a.capacity ≤ e.maximum
  tensors : ∀ tensor ∈ phaseTensors a.phase, tensorBytes tensor ≤ e.room

/-- whatever is required, a new capacity is one that the sequence may have -/
theorem grow_le {maximum required : Nat} : ∀ fuel capacity {capacity'}, capacity ≤ maximum →
    grow maximum required fuel capacity = some capacity' → capacity' ≤ maximum := by
  intro fuel
  induction fuel with
  | zero =>
    intro capacity capacity' hle h
    unfold grow at h
    split at h
    · cases h
    · exact Option.some.inj h ▸ hle
  | succ fuel ih =>
    intro capacity capacity' hle h
    unfold grow at h
    split at h
    · refine ih _ ?_ h
      split
      · exact Nat.le_refl _
      · omega
    · exact Option.some.inj h ▸ hle

theorem enter_fits {layer first : Nat} {keys values : HeadView K} {a : Appending K} (h : Roomy e c)
    (hpositive : 0 < e.maximum) (ha : c.enter layer first keys values = .ok a) : AppendFits e a := by
  have hlayer := (h.layer layer).capacity
  unfold enter at ha
  obtain ⟨-, ha⟩ := Outcome.throwIf_bind_eq_ok.mp ha
  dsimp only at ha
  obtain ⟨-, ha⟩ := Outcome.throwIf_bind_eq_ok.mp ha
  split at ha
  · split at ha
    · exact nomatch ha
    · next capacity hgrow =>
      obtain rfl := Except.ok.inj ha
      rw [h.maximum] at hgrow
      exact ⟨grow_le _ _ (Nat.max_le.mpr ⟨hpositive, hlayer⟩) hgrow, fun _ h => nomatch h⟩
  · obtain rfl := Except.ok.inj ha
    exact ⟨hlayer, fun _ h => nomatch h⟩

theorem expand_bytes {count : Nat} {keys values : Option (List K)}
    {tensors : Option (List K) × Option (List K)} (h : expand s count keys values = .ok tensors) :
    tensorBytes tensors.1 = tensorBytes keys ∧ tensorBytes tensors.2 = tensorBytes values := by
  unfold expand at h
  split at h
  · obtain ⟨_, -, h⟩ := Outcome.bind_eq_ok.mp h
    obtain ⟨keys', hkeys, h⟩ := Outcome.bind_eq_ok.mp h
    obtain ⟨_, -, h⟩ := Outcome.bind_eq_ok.mp h
    obtain ⟨values', hvalues, h⟩ := Outcome.bind_eq_ok.mp h
    obtain rfl := Except.ok.inj h
    exact ⟨bytes_copyInto hkeys, bytes_copyInto hvalues⟩
  · obtain rfl := Except.ok.inj h
    exact ⟨rfl, rfl⟩

theorem store_roomy {layer first required : Nat} {keys values : HeadView K} (h : Roomy e c) :
    wp (store layer first required keys values) (fun _ c' => Roomy e c') c := by
  have hlayer := h.layer layer
  unfold store
  rw [wp_bind, wp_read]
  simp only [wp_bind, wp_settle, wp_update]
  cases hkeys : copyInto (c.storage layer).keys ((c.storage layer).tokens * c.keyValueHeads *
    c.headDimension * 4) keys.values with
  | error x => exact h
  | ok keys' =>
    have hkeys' : tensorBytes keys' ≤ e.room := (bytes_copyInto hkeys).le.trans hlayer.keys
    cases hvalues : copyInto (c.storage layer).values ((c.storage layer).tokens * c.keyValueHeads *
      c.headDimension * 4) values.values with
    | error x => exact h.put layer ⟨hlayer.capacity, hkeys', hlayer.values⟩
    | ok values' =>
      have hvalues' : tensorBytes values' ≤ e.room := (bytes_copyInto hvalues).le.trans hlayer.values
      have hput := (h.put layer (s := { c.storage layer with keys := keys' })
        ⟨hlayer.capacity, hkeys', hlayer.values⟩).put layer
          (s := { c.storage layer with keys := keys', values := values' })
            ⟨hlayer.capacity, hkeys', hvalues'⟩
      exact hput.put layer ⟨hlayer.capacity, hkeys', hvalues'⟩

/-- one statement of an append -/
theorem advance_fits {a : Appending K} (fresh : Fresh K) (h : Roomy e c) (ha : AppendFits e a) :
    wp (advance fresh a) (fun r c' => Roomy e c' ∧
      ∀ phase, r = .ok (some phase) → AppendFits e { a with phase }) c := by
  have hlayer := h.layer a.layer
  have hroom : a.capacity * c.keyValueHeads * c.headDimension * 4 ≤ e.room := by
    rw [h.heads, h.dimension]
    exact Nat.mul_le_mul_right _ (Nat.mul_le_mul_right _ (Nat.mul_le_mul_right _ ha.capacity))
  have htensors := ha.tensors
  unfold advance
  rw [wp_bind, wp_read]
  dsimp only
  cases hphase : a.phase with
  | allocateKeys =>
    refine ⟨h, ?_⟩
    rintro phase ⟨⟩
    refine ⟨ha.capacity, fun tensor ht => ?_⟩
    obtain rfl := List.mem_singleton.mp ht
    exact (bytes_allocateTensor _ _).le.trans hroom
  | allocateValues expandedKeys =>
    rw [hphase] at htensors
    refine ⟨h, ?_⟩
    rintro phase ⟨⟩
    refine ⟨ha.capacity, fun tensor ht => ?_⟩
    rcases List.mem_cons.mp ht with rfl | ht
    · exact htensors _ List.mem_cons_self
    · obtain rfl := List.mem_singleton.mp ht
      exact (bytes_allocateTensor _ _).le.trans hroom
  | copy expandedKeys expandedValues =>
    rw [hphase] at htensors
    rw [wp_bind, wp_settle]
    cases hexpand : expand (c.storage a.layer) ((c.storage a.layer).tokens * c.keyValueHeads *
      c.headDimension) expandedKeys expandedValues with
    | error x => exact ⟨h, fun _ hr => nomatch hr⟩
    | ok tensors =>
      obtain ⟨hkeys, hvalues⟩ := expand_bytes hexpand
      refine ⟨h, ?_⟩
      rintro phase ⟨⟩
      refine ⟨ha.capacity, fun tensor ht => ?_⟩
      rcases List.mem_cons.mp ht with rfl | ht
      · exact hkeys.le.trans (htensors _ List.mem_cons_self)
      · obtain rfl := List.mem_singleton.mp ht
        exact hvalues.le.trans (htensors _ (List.mem_cons_of_mem _ List.mem_cons_self))
  | moveKeys expandedKeys expandedValues =>
    rw [hphase] at htensors
    refine ⟨h.put a.layer ⟨hlayer.capacity, htensors _ List.mem_cons_self, hlayer.values⟩, ?_⟩
    rintro phase ⟨⟩
    exact ⟨ha.capacity, fun tensor ht => htensors _ (List.mem_cons_of_mem _ ht)⟩
  | moveValues expandedValues =>
    rw [hphase] at htensors
    refine ⟨h.put a.layer ⟨ha.capacity, hlayer.keys, htensors _ List.mem_cons_self⟩, ?_⟩
    rintro phase ⟨⟩
    exact ⟨ha.capacity, fun _ h => nomatch h⟩
  | store =>
    refine wp_seq (store_roomy h) (fun u c' h' => ⟨h', ?_⟩) fun x c' h' => ⟨h', ?_⟩
    · exact fun _ hr => nomatch hr
    · exact fun _ hr => nomatch hr

end

end CudaKVCache

/-! ## a cache and the append that holds its mutex -/

structure Growing (K : Type) where
  cache : CudaKVCache K
  appending : Option (Appending K) := none

namespace Growing

open CudaKVCache (tensorBytes phaseTensors)

/-- the bytes of the tensors that are allocated, old and expanded ones -/
def bytes (g : Growing K) : Nat :=
  (g.cache.layers.map fun s => tensorBytes s.keys + tensorBytes s.values).sum +
    g.appending.elim 0 fun a => ((phaseTensors a.phase).map tensorBytes).sum

def enter (layer first : Nat) (keys values : HeadView K) (g : Growing K) : Growing K :=
  match g.cache.enter layer first keys values with
  | .ok a => { g with appending := some a }
  | .error _ => g

/-- the call goes on, or is left with its last statement or with an exception -/
def proceed (fresh : Fresh K) (a : Appending K) (g : Growing K) : Growing K :=
  match (CudaKVCache.advance fresh a).exec g.cache with
  | (.ok (some phase), cache) => ⟨cache, some { a with phase }⟩
  | (_, cache) => ⟨cache, none⟩

/-- an allocation or a copy of the device fails: the tensors of the call are freed -/
def abandon (g : Growing K) : Growing K := { g with appending := none }

def clear (layer : Nat) (g : Growing K) : Growing K :=
  { g with cache := ((CudaKVCache.clear layer).exec g.cache).2 }

def reset (g : Growing K) : Growing K := { g with cache := (CudaKVCache.reset.exec g.cache).2 }

structure Fits (e : CudaKVCache.Extent) (g : Growing K) : Prop where
  cache : CudaKVCache.Roomy e g.cache
  appending : ∀ a, g.appending = some a → CudaKVCache.AppendFits e a

section
variable {e : CudaKVCache.Extent} {g : Growing K}

theorem fits_enter (h : Fits e g) (hpositive : 0 < e.maximum) (layer first : Nat)
    (keys values : HeadView K) : Fits e (g.enter layer first keys values) := by
  unfold enter
  split
  · next a ha =>
    refine ⟨h.cache, fun a' ha' => ?_⟩
    obtain rfl := Option.some.inj ha'
    exact CudaKVCache.enter_fits h.cache hpositive ha
  · exact h

theorem fits_proceed (h : Fits e g) (fresh : Fresh K) {a : Appending K}
    (ha : g.appending = some a) : Fits e (g.proceed fresh a) := by
  obtain ⟨hcache, hphase⟩ := CudaKVCache.advance_fits fresh h.cache (h.appending a ha)
  unfold proceed
  split
  · next phase cache hexec =>
    rw [hexec] at hcache hphase
    refine ⟨hcache, fun a' ha' => ?_⟩
    obtain rfl := Option.some.inj ha'
    exact hphase phase rfl
  · next hexec =>
    rw [hexec] at hcache
    exact ⟨hcache, fun _ h => nomatch h⟩

theorem fits_abandon (h : Fits e g) : Fits e g.abandon := ⟨h.cache, fun _ h => nomatch h⟩

theorem fits_clear (h : Fits e g) (layer : Nat) : Fits e (g.clear layer) := by
  refine ⟨?_, h.appending⟩
  have hwp : wp (CudaKVCache.clear layer) (fun _ c' => CudaKVCache.Roomy e c') g.cache := by
    unfold CudaKVCache.clear
    rw [wp_bind, wp_read]
    dsimp only
    rw [wp_bind, wp_throwIf]
    split
    · exact h.cache
    · exact h.cache.put layer (CudaKVCache.contained_empty _ _)
  exact hwp

theorem fits_reset (h : Fits e g) : Fits e g.reset := by
  refine ⟨⟨(List.length_map _).trans h.cache.layers, h.cache.maximum, h.cache.heads,
    h.cache.dimension, fun s hs => ?_⟩, h.appending⟩
  obtain ⟨_, -, rfl⟩ := List.mem_map.mp hs
  exact CudaKVCache.contained_empty _ _

theorem sum_le_of_tensors {tensors : List (Option (List K))} {room : Nat}
    (h : ∀ tensor ∈ tensors, tensorBytes tensor ≤ room) :
    (tensors.map tensorBytes).sum ≤ tensors.length * room := by
  have hsum := List.sum_le_card_nsmul (tensors.map tensorBytes) room fun n hn => by
    obtain ⟨tensor, ht, rfl⟩ := List.mem_map.mp hn
    exact h tensor ht
  rwa [List.length_map] at hsum

theorem length_phaseTensors (phase : Phase K) : (phaseTensors phase).length ≤ 2 := by
  cases phase with
  | allocateKeys => exact Nat.zero_le _
  | allocateValues expandedKeys => exact Nat.le_succ 1
  | copy expandedKeys expandedValues => exact Nat.le_refl 2
  | moveKeys expandedKeys expandedValues => exact Nat.le_refl 2
  | moveValues expandedValues => exact Nat.le_succ 1
  | store => exact Nat.zero_le _

/-- two tensors for each layer, and two more for the one that grows -/
theorem Fits.bytes_le (h : Fits e g) : g.bytes ≤ (e.layers + 1) * (2 * e.room) := by
  have hlayers : (g.cache.layers.map fun s => tensorBytes s.keys + tensorBytes s.values).sum ≤
      e.layers * (2 * e.room) := by
    have hsum := List.sum_le_card_nsmul (g.cache.layers.map fun s =>
        tensorBytes s.keys + tensorBytes s.values) (2 * e.room) fun n hn => by
      obtain ⟨s, hs, rfl⟩ := List.mem_map.mp hn
      have hkeys := (h.cache.storage s hs).keys
      have hvalues := (h.cache.storage s hs).values
      omega
    rwa [List.length_map, h.cache.layers] at hsum
  have happending : (g.appending.elim 0 fun a => ((phaseTensors a.phase).map tensorBytes).sum) ≤
      2 * e.room := by
    cases ha : g.appending with
    | none => exact Nat.zero_le _
    | some a =>
      have hsum := sum_le_of_tensors (h.appending a ha).tensors
      exact hsum.trans (Nat.mul_le_mul_right _ (length_phaseTensors a.phase))
  unfold bytes
  rw [Nat.succ_mul]
  exact Nat.add_le_add hlayers happending

end

end Growing

end HyperMoE.Transformer
