import HyperMoE.Lib.Fallible
import HyperMoE.Lib.Grid
import HyperMoE.Memory.Tier
import HyperMoE.Tensor.Shape

/-!
# The key/value cache

`KVCache.cpp`: for each layer the keys and the values of the tokens read so far.  A cache is built
with its layers in order: as many keys and values as its tokens need, at the positions from zero
on, and no more tokens than the sequence may have.

* `LayerStorage`           what one layer holds;
* `KVCache.append`         more tokens for one layer;
* `make`, `clear`, `reset`, `memoryUsageBytes`   the other calls;
* `gives_append`           what an append that returns has done;
* `entries`                the same storage, token by token.
-/

namespace HyperMoE.Transformer

open Lib Lib.Fallible Tensor

variable {K : Type}

/-- a contiguous view of rank three: tokens, heads and features -/
structure HeadView (K : Type) where
  tokens : Nat
  heads : Nat
  dimension : Nat
  values : List K
  sized : values.length = tokens * heads * dimension

/-- `view.reshape({tokens, heads, dimension})` of a matrix -/
def reshape (g : Grid K) (tokens heads dimension : Nat) : Except StdError (HeadView K) :=
  if h : g.rows * g.columns = tokens * heads * dimension then
    .ok ⟨tokens, heads, dimension, g.values, g.sized.trans h⟩
  else .error (.invalid_argument "reshape must preserve the element count")

structure LayerStorage (K : Type) where
  positions : List Nat := []
  keys : List K := []
  values : List K := []
  deriving DecidableEq

/-- tokens at the positions from zero on, with `width` keys and values each -/
structure LayerStorage.Sized (s : LayerStorage K) (width maximum : Nat) : Prop where
  positions : s.positions = List.range s.positions.length
  keys : s.keys.length = s.positions.length * width
  values : s.values.length = s.positions.length * width
  capacity : s.positions.length ≤ maximum

structure KVCache (K : Type) where
  maximumSequenceLength : Nat
  keyValueHeads : Nat
  headDimension : Nat
  layers : List (LayerStorage K)
  sized : ∀ s ∈ layers, s.Sized (keyValueHeads * headDimension) maximumSequenceLength

/-- `KVCacheSnapshot`: a copy of a layer -/
structure KVCacheSnapshot (K : Type) where
  positions : List Nat
  keys : List K
  values : List K
  keyValueHeads : Nat
  headDimension : Nat

def KVCacheSnapshot.tokenCount (s : KVCacheSnapshot K) : Nat := s.positions.length

namespace KVCache

def layer (c : KVCache K) (layer : Nat) : LayerStorage K := c.layers.getD layer {}

/-- `storage` with the tokens of the views behind its own -/
def extend (storage : LayerStorage K) (firstPosition : Nat) (keys values : HeadView K) :
    LayerStorage K where
  positions := storage.positions ++ (List.range keys.tokens).map fun token => firstPosition + token
  keys := storage.keys ++ keys.values
  values := storage.values ++ values.values

theorem sized_empty (width maximum : Nat) : ({} : LayerStorage K).Sized width maximum where
  positions := rfl
  keys := (Nat.zero_mul width).symm
  values := (Nat.zero_mul width).symm
  capacity := Nat.zero_le maximum

theorem sized_layer (c : KVCache K) (layer : Nat) :
    (c.layer layer).Sized (c.keyValueHeads * c.headDimension) c.maximumSequenceLength := by
  unfold KVCache.layer
  rcases Nat.lt_or_ge layer c.layers.length with h | h
  · rw [List.getD_eq_getElem _ _ h]
    exact c.sized _ (List.getElem_mem h)
  · rw [List.getD_eq_default _ _ h]
    exact sized_empty _ _

theorem sized_extend {storage : LayerStorage K} {keys values : HeadView K} {heads dimension maximum : Nat}
    (h : storage.Sized (heads * dimension) maximum)
    (hshape : keys.tokens = values.tokens ∧ keys.heads = values.heads ∧
      keys.dimension = values.dimension)
    (hheads : keys.heads = heads ∧ keys.dimension = dimension)
    (hcapacity : keys.tokens ≤ maximum - storage.positions.length) :
    (extend storage storage.positions.length keys values).Sized (heads * dimension) maximum := by
  obtain ⟨htokens, hheads', hdimension⟩ := hshape
  obtain ⟨rfl, rfl⟩ := hheads
  have hlength : (extend storage storage.positions.length keys values).positions.length =
      storage.positions.length + keys.tokens := by
    rw [extend, List.length_append, List.length_map, List.length_range]
  refine ⟨?_, ?_, ?_, ?_⟩
  · rw [hlength, List.range_add, ← h.positions]
    rfl
  · rw [hlength, extend, List.length_append, h.keys, keys.sized, Nat.add_mul, Nat.mul_assoc]
  · rw [hlength, extend, List.length_append, h.values, values.sized, ← htokens, ← hheads',
      ← hdimension, Nat.add_mul, Nat.mul_assoc]
  · rw [hlength]
    have := h.capacity
    omega

/-- `KVCache::append`, as a new cache.  The number of elements is bounded when a cache is made, so
that the element count cannot overflow here. -/
def appended (c : KVCache K) (layer firstPosition : Nat) (keys values : HeadView K) :
    Except StdError (KVCache K) :=
  if layer ≥ c.layers.length then
    .error (.invalid_argument "KV cache append requires matching CPU FP32 tensors")
  else if hshape : keys.tokens = values.tokens ∧ keys.heads = values.heads ∧
      keys.dimension = values.dimension then
    if keys.tokens = 0 then
      .error (.invalid_argument "KV cache tensor shape is incompatible")
    else if hheads : keys.heads = c.keyValueHeads ∧ keys.dimension = c.headDimension then
      if hposition : firstPosition = (c.layer layer).positions.length ∧
          keys.tokens ≤ c.maximumSequenceLength - (c.layer layer).positions.length then
        .ok { c with
          layers := c.layers.set layer (extend (c.layer layer) firstPosition keys values)
          sized := fun s hs => by
            rcases List.mem_or_eq_of_mem_set hs with hs | rfl
            · exact c.sized s hs
            · obtain ⟨rfl, hcapacity⟩ := hposition
              exact sized_extend (c.sized_layer layer) hshape hheads hcapacity }
      else .error (.invalid_argument "KV cache append must be contiguous and within sequence capacity")
    else .error (.invalid_argument "KV cache tensor shape is incompatible")
  else .error (.invalid_argument "KV cache append requires matching CPU FP32 tensors")

def append (layer firstPosition : Nat) (keys values : HeadView K) :
    Fallible StdError (KVCache K) Unit := do
  let c ← read
  let c ← settle (c.appended layer firstPosition keys values)
  update fun _ => c

/-- a copy of a layer -/
def copy (c : KVCache K) (layer : Nat) : KVCacheSnapshot K where
  positions := (c.layer layer).positions
  keys := (c.layer layer).keys
  values := (c.layer layer).values
  keyValueHeads := c.keyValueHeads
  headDimension := c.headDimension

def snapshot (layer : Nat) : Fallible StdError (KVCache K) (KVCacheSnapshot K) := do
  let c ← read
  throwIf (layer ≥ c.layers.length) (.out_of_range "KV cache layer is invalid")
  return c.copy layer

/-! ## the other calls -/

/-- `std::numeric_limits<std::size_t>::max()` -/
def maxSize : Nat := 2 ^ 64 - 1

/-- 2 ^ 61 - 1 values are let through, the bytes of a token wrap around to zero, and the code divides
by them; so nothing is returned there -/
def checkedCacheBytes (layers sequence heads dimension : Nat) : Except StdError Nat :=
  if layers = 0 ∨ sequence = 0 ∨ heads = 0 ∨ dimension = 0 ∨ heads > maxSize / dimension then
    .error (.invalid_argument "KV cache dimensions must be nonzero")
  else if heads * dimension > maxSize / 8 then
    .error (.overflow_error "KV cache per-token storage overflows")
  else
    let perToken := (8 + 2 * (heads * dimension) * 4) % 2 ^ 64
    if perToken = 0 then .error (.runtime_error "division by zero")
    else if sequence > maxSize / perToken ∨ layers > maxSize / (sequence * perToken) then
      .error (.overflow_error "KV cache maximum storage overflows")
    else .ok (layers * sequence * perToken)

/-- `KVCache(layerCount, maximumSequenceLength, keyValueHeads, headDimension)` -/
def make (K : Type) (layerCount maximumSequenceLength keyValueHeads headDimension : Nat) :
    Except StdError (KVCache K) := do
  let _ ← checkedCacheBytes layerCount maximumSequenceLength keyValueHeads headDimension
  return {
    maximumSequenceLength, keyValueHeads, headDimension
    layers := List.replicate layerCount {}
    sized := fun _ hs => (List.mem_replicate.mp hs).2 ▸ sized_empty _ _ }

def clear (layer : Nat) : Fallible StdError (KVCache K) Unit := do
  let c ← read
  throwIf (layer ≥ c.layers.length) (.out_of_range "KV cache layer is invalid")
  update fun c => { c with
    layers := c.layers.set layer {}
    sized := fun s hs => by
      rcases List.mem_or_eq_of_mem_set hs with hs | rfl
      · exact c.sized s hs
      · exact sized_empty _ _ }

def reset : Fallible StdError (KVCache K) Unit :=
  update fun c => { c with
    layers := c.layers.map fun _ => {}
    sized := fun s hs => by
      obtain ⟨_, -, rfl⟩ := List.mem_map.mp hs
      exact sized_empty _ _ }

def memoryUsageBytes (c : KVCache K) : Nat :=
  c.layers.foldl (fun result layer => (result + (layer.positions.length * 8 +
    (layer.keys.length + layer.values.length) * 4)) % 2 ^ 64) 0

def maximumMemoryUsageBytes (c : KVCache K) : Except StdError Nat :=
  checkedCacheBytes c.layers.length c.maximumSequenceLength c.keyValueHeads c.headDimension

/-! ## what an append that returns has done -/

/-- the cache with another storage for one layer -/
structure Extended (c : KVCache K) (layer firstPosition : Nat) (keys values : HeadView K)
    (c' : KVCache K) : Prop where
  layer_lt : layer < c.layers.length
  tokens : keys.tokens = values.tokens
  tokens_ne_zero : keys.tokens ≠ 0
  heads : keys.heads = c.keyValueHeads ∧ values.heads = c.keyValueHeads
  dimension : keys.dimension = c.headDimension ∧ values.dimension = c.headDimension
  position : (c.layer layer).positions.length = firstPosition
  capacity : firstPosition + keys.tokens ≤ c.maximumSequenceLength
  maximum : c'.maximumSequenceLength = c.maximumSequenceLength
  keyValueHeads : c'.keyValueHeads = c.keyValueHeads
  headDimension : c'.headDimension = c.headDimension
  layers : c'.layers = c.layers.set layer (extend (c.layer layer) firstPosition keys values)

theorem ext {c c' : KVCache K} (hmaximum : c'.maximumSequenceLength = c.maximumSequenceLength)
    (hheads : c'.keyValueHeads = c.keyValueHeads) (hdimension : c'.headDimension = c.headDimension)
    (hlayers : c'.layers = c.layers) : c' = c := by
  obtain ⟨_, _, _, _, _⟩ := c
  obtain ⟨_, _, _, _, _⟩ := c'
  obtain rfl := hmaximum
  obtain rfl := hheads
  obtain rfl := hdimension
  obtain rfl := hlayers
  rfl

theorem appended_eq_ok {c c' : KVCache K} {layer firstPosition : Nat} {keys values : HeadView K} :
    c.appended layer firstPosition keys values = .ok c' ↔
      Extended c layer firstPosition keys values c' := by
  unfold appended
  constructor
  · intro h
    split at h
    · exact nomatch h
    · next hlayer =>
      split at h
      · next hshape =>
        split at h
        · exact nomatch h
        · next htokens =>
          split at h
          · next hheads =>
            split at h
            · next hposition =>
              obtain rfl := Except.ok.inj h
              have hcapacity := (c.sized_layer layer).capacity
              exact ⟨Nat.lt_of_not_le hlayer, hshape.1, htokens,
                ⟨hheads.1, hshape.2.1 ▸ hheads.1⟩, ⟨hheads.2, hshape.2.2 ▸ hheads.2⟩,
                hposition.1.symm, by omega, rfl, rfl, rfl, rfl⟩
            · exact nomatch h
          · exact nomatch h
      · exact nomatch h
  · intro h
    obtain ⟨hlayer, htokens, hzero, hheads, hdimension, hposition, hcapacity, hmaximum, hheads',
      hdimension', hlayers⟩ := h
    rw [if_neg (Nat.not_le.mpr hlayer),
      dif_pos ⟨htokens, hheads.1.trans hheads.2.symm, hdimension.1.trans hdimension.2.symm⟩,
      if_neg hzero, dif_pos ⟨hheads.1, hdimension.1⟩, dif_pos ⟨hposition.symm, by omega⟩]
    refine congrArg Except.ok (ext ?_ ?_ ?_ ?_)
    · exact hmaximum.symm
    · exact hheads'.symm
    · exact hdimension'.symm
    · exact hlayers.symm

theorem gives_append {c c' : KVCache K} {layer firstPosition : Nat} {keys values : HeadView K}
    {u : Unit} : Gives (append layer firstPosition keys values) c u c' ↔
      Extended c layer firstPosition keys values c' := by
  unfold append
  rw [gives_read_bind, gives_settle_bind]
  constructor
  · rintro ⟨c₁, happended, h⟩
    obtain rfl := gives_update.mp h
    exact appended_eq_ok.mp happended
  · intro h
    exact ⟨c', appended_eq_ok.mpr h, gives_update.mpr rfl⟩

theorem gives_snapshot {c c' : KVCache K} {layer : Nat} {s : KVCacheSnapshot K} :
    Gives (snapshot layer) c s c' ↔ layer < c.layers.length ∧ s = c.copy layer ∧ c = c' := by
  unfold snapshot
  rw [gives_read_bind, gives_throwIf_bind, gives_pure, Nat.not_le, @eq_comm _ s]

end KVCache

theorem getD_set {α : Type} (l : List α) {i : Nat} (x default : α) (h : i < l.length) (j : Nat) :
    (l.set i x).getD j default = if j = i then x else l.getD j default := by
  rw [List.getD_eq_getElem?_getD, List.getElem?_set, if_pos h]
  split
  · next heq => rw [if_pos heq.symm, Option.getD_some]
  · next hne => rw [if_neg (Ne.symm hne), List.getD_eq_getElem?_getD]

/-! ## token by token -/

namespace LayerStorage

variable [Zero K] {s s' : LayerStorage K} {width maximum : Nat}

/-- the key and the value of each token -/
def entries (s : LayerStorage K) (width : Nat) : List (List K × List K) :=
  (List.range s.positions.length).map fun column =>
    (Grid.rowAt width s.keys column, Grid.rowAt width s.values column)

@[simp] theorem length_entries : (s.entries width).length = s.positions.length := by
  rw [entries, List.length_map, List.length_range]

/-- a storage is known by its tokens -/
theorem eq_of_entries (h : s.Sized width maximum) (h' : s'.Sized width maximum)
    (heq : s.entries width = s'.entries width) : s = s' := by
  have hlength : s.positions.length = s'.positions.length := by
    rw [← @length_entries _ _ s width, heq, length_entries]
  have hrow : ∀ r < s.positions.length,
      Grid.rowAt width s.keys r = Grid.rowAt width s'.keys r ∧
      Grid.rowAt width s.values r = Grid.rowAt width s'.values r := by
    intro r hr
    have hlt : r < (s.entries width).length := by rwa [length_entries]
    have hpair := List.getElem_of_eq heq hlt
    simp only [entries, List.getElem_map, List.getElem_range] at hpair
    exact Prod.mk.inj hpair
  have hpositions : s.positions = s'.positions := by rw [h.positions, h'.positions, hlength]
  have hkeys : s.keys = s'.keys :=
    Grid.eq_of_rowAt h.keys (hlength ▸ h'.keys) fun r hr => (hrow r hr).1
  have hvalues : s.values = s'.values :=
    Grid.eq_of_rowAt h.values (hlength ▸ h'.values) fun r hr => (hrow r hr).2
  obtain ⟨_, _, _⟩ := s
  obtain ⟨_, _, _⟩ := s'
  obtain rfl := hpositions
  obtain rfl := hkeys
  obtain rfl := hvalues
  rfl

theorem entries_extend {firstPosition : Nat} {keys values : HeadView K} (h : s.Sized width maximum) :
    (KVCache.extend s firstPosition keys values).entries width =
      s.entries width ++ (List.range keys.tokens).map fun token =>
        (Grid.rowAt width keys.values token, Grid.rowAt width values.values token) := by
  have hlength : (KVCache.extend s firstPosition keys values).positions.length =
      s.positions.length + keys.tokens := by
    rw [KVCache.extend, List.length_append, List.length_map, List.length_range]
  rw [entries, hlength, List.range_add, List.map_append, List.map_map]
  congr 1
  · apply List.map_congr_left
    intro column hcolumn
    have hlt := List.mem_range.mp hcolumn
    exact Prod.ext (Grid.rowAt_append_left _ h.keys hlt) (Grid.rowAt_append_left _ h.values hlt)
  · apply List.map_congr_left
    intro token _
    exact Prod.ext (Grid.rowAt_append_right _ h.keys) (Grid.rowAt_append_right _ h.values)

end LayerStorage

/-! ## an append, token by token -/

/-- the matrix as it is stored: `heads * dimension` columns -/
def headView (g : Grid K) (heads dimension : Nat) (h : g.columns = heads * dimension) : HeadView K where
  tokens := g.rows
  heads := heads
  dimension := dimension
  values := g.values
  sized := by rw [g.sized, h, Nat.mul_assoc]

theorem reshape_eq_ok {g : Grid K} {heads dimension : Nat} (h : g.columns = heads * dimension) :
    reshape g g.rows heads dimension = .ok (headView g heads dimension h) :=
  dif_pos (by rw [h, Nat.mul_assoc])

namespace KVCache

variable [Zero K] {c c' : KVCache K} {layer position : Nat}

/-- the tokens of a layer -/
def entries (c : KVCache K) (layer : Nat) : List (List K × List K) :=
  (c.layer layer).entries (c.keyValueHeads * c.headDimension)

@[simp] theorem length_entries : (c.entries layer).length = (c.layer layer).positions.length :=
  LayerStorage.length_entries

/-- a layer has `new` tokens more, and nothing else has changed -/
structure Appends (c : KVCache K) (layer position : Nat) (new : List (List K × List K))
    (c' : KVCache K) : Prop where
  layer_lt : layer < c.layers.length
  start : (c.entries layer).length = position
  capacity : position + new.length ≤ c.maximumSequenceLength
  maximum : c'.maximumSequenceLength = c.maximumSequenceLength
  keyValueHeads : c'.keyValueHeads = c.keyValueHeads
  headDimension : c'.headDimension = c.headDimension
  layers : c'.layers = c.layers.set layer (c'.layer layer)
  entries : c'.entries layer = c.entries layer ++ new

variable {heads dimension : Nat} {key value : Grid K} (hkey : key.columns = heads * dimension)
  (hvalue : value.columns = heads * dimension)

theorem entries_extend {s : LayerStorage K} {maximum : Nat} (h : s.Sized (heads * dimension) maximum) :
    (extend s position (headView key heads dimension hkey)
      (headView value heads dimension hvalue)).entries (heads * dimension) =
      s.entries (heads * dimension) ++ (List.range key.rows).map fun token =>
        (key.row token, value.row token) := by
  rw [LayerStorage.entries_extend h]
  congr 1
  apply List.map_congr_left
  intro token _
  unfold Grid.row
  rw [hkey, hvalue]
  rfl

theorem extended_iff (hrows : key.rows = value.rows) :
    Extended c layer position (headView key heads dimension hkey)
        (headView value heads dimension hvalue) c' ↔
      (c.keyValueHeads = heads ∧ c.headDimension = dimension) ∧ key.rows ≠ 0 ∧
      Appends c layer position ((List.range key.rows).map fun token =>
        (key.row token, value.row token)) c' := by
  constructor
  · intro h
    obtain ⟨rfl, rfl⟩ : heads = c.keyValueHeads ∧ dimension = c.headDimension :=
      ⟨h.heads.1, h.dimension.1⟩
    have hlayer : c'.layer layer = extend (c.layer layer) position
        (headView key c.keyValueHeads c.headDimension hkey)
        (headView value c.keyValueHeads c.headDimension hvalue) := by
      rw [KVCache.layer, h.layers, List.getD_eq_getElem _ _ (by rw [List.length_set]; exact h.layer_lt),
        List.getElem_set_self]
    refine ⟨⟨rfl, rfl⟩, h.tokens_ne_zero, h.layer_lt, ?_, ?_, h.maximum, h.keyValueHeads,
      h.headDimension, ?_, ?_⟩
    · rw [length_entries]
      exact h.position
    · rw [List.length_map, List.length_range]
      exact h.capacity
    · rw [hlayer]
      exact h.layers
    · rw [KVCache.entries, hlayer, h.keyValueHeads, h.headDimension]
      exact entries_extend hkey hvalue (c.sized_layer layer)
  · rintro ⟨⟨rfl, rfl⟩, hzero, h⟩
    have hposition : (c.layer layer).positions.length = position := by
      rw [← length_entries]
      exact h.start
    have hcapacity : position + key.rows ≤ c.maximumSequenceLength := by
      have := h.capacity
      rwa [List.length_map, List.length_range] at this
    have hlayer : c'.layer layer = extend (c.layer layer) position
        (headView key c.keyValueHeads c.headDimension hkey)
        (headView value c.keyValueHeads c.headDimension hvalue) := by
      have hsized := c'.sized_layer layer
      rw [h.maximum, h.keyValueHeads, h.headDimension] at hsized
      refine LayerStorage.eq_of_entries hsized ?_ ?_
      · rw [← hposition]
        refine sized_extend (c.sized_layer layer) ⟨hrows, rfl, rfl⟩ ⟨rfl, rfl⟩ ?_
        show key.rows ≤ _
        omega
      · rw [entries_extend hkey hvalue (c.sized_layer layer)]
        have hentries := h.entries
        rw [KVCache.entries, h.keyValueHeads, h.headDimension] at hentries
        exact hentries
    exact ⟨h.layer_lt, hrows, hzero, ⟨rfl, rfl⟩, ⟨rfl, rfl⟩, hposition, hcapacity, h.maximum,
      h.keyValueHeads, h.headDimension, hlayer ▸ h.layers⟩

/-- tokens that fit are appended -/
theorem exists_appends (hrows : key.rows = value.rows) (hne : key.rows ≠ 0)
    (hkey' : key.columns = c.keyValueHeads * c.headDimension)
    (hvalue' : value.columns = c.keyValueHeads * c.headDimension)
    (hlayer : layer < c.layers.length) (hstart : (c.entries layer).length = position)
    (hcapacity : position + key.rows ≤ c.maximumSequenceLength) :
    ∃ c', Appends c layer position ((List.range key.rows).map fun token =>
      (key.row token, value.row token)) c' := by
  rw [length_entries] at hstart
  have hok : ∃ c', c.appended layer position (headView key c.keyValueHeads c.headDimension hkey')
      (headView value c.keyValueHeads c.headDimension hvalue') = .ok c' := by
    have hposition : position = (c.layer layer).positions.length ∧
        (headView key c.keyValueHeads c.headDimension hkey').tokens ≤
          c.maximumSequenceLength - (c.layer layer).positions.length := by
      refine ⟨hstart.symm, ?_⟩
      show key.rows ≤ _
      omega
    have hne' : ¬ (headView key c.keyValueHeads c.headDimension hkey').tokens = 0 := hne
    unfold appended
    rw [if_neg (Nat.not_le.mpr hlayer), dif_pos ⟨hrows, rfl, rfl⟩, if_neg hne', dif_pos ⟨rfl, rfl⟩,
      dif_pos hposition]
    exact ⟨_, rfl⟩
  obtain ⟨c', hc'⟩ := hok
  exact ⟨c', ((extended_iff hkey' hvalue' hrows).mp (appended_eq_ok.mp hc')).2.2⟩

/-- the tokens of every layer -/
def memories (c : KVCache K) : List (List (List K × List K)) :=
  c.layers.map fun s => s.entries (c.keyValueHeads * c.headDimension)

@[simp] theorem length_memories : c.memories.length = c.layers.length := List.length_map _

theorem getElem_memories (h : layer < c.memories.length) : c.memories[layer] = c.entries layer := by
  have hlt : layer < c.layers.length := length_memories (c := c) ▸ h
  have hlayer : c.layer layer = c.layers[layer] := List.getD_eq_getElem _ _ hlt
  simp only [memories, List.getElem_map, entries, hlayer]

theorem drop_memories (h : layer < c.layers.length) :
    c.memories.drop layer = c.entries layer :: c.memories.drop (layer + 1) := by
  rw [List.drop_eq_getElem_cons (by rwa [length_memories]), getElem_memories]

/-- a cache is known by its tokens -/
theorem eq_of_memories (hmaximum : c'.maximumSequenceLength = c.maximumSequenceLength)
    (hheads : c'.keyValueHeads = c.keyValueHeads) (hdimension : c'.headDimension = c.headDimension)
    (h : c'.memories = c.memories) : c' = c := by
  have hlength : c'.layers.length = c.layers.length := by
    rw [← length_memories, h, length_memories]
  refine ext hmaximum hheads hdimension (List.ext_getElem hlength fun i hi hi' => ?_)
  have hentries : c'.layers[i].entries (c'.keyValueHeads * c'.headDimension) =
      c.layers[i].entries (c.keyValueHeads * c.headDimension) := by
    have hget := List.getElem_of_eq h (show i < c'.memories.length by rwa [length_memories])
    simpa only [memories, List.getElem_map] using hget
  rw [hheads, hdimension] at hentries
  have hsized := c'.sized _ (List.getElem_mem hi)
  rw [hheads, hdimension, hmaximum] at hsized
  exact LayerStorage.eq_of_entries hsized (c.sized _ (List.getElem_mem hi')) hentries

/-- the other layers are as they were -/
theorem Appends.entries_ne {new : List (List K × List K)} (h : c.Appends layer position new c')
    {other : Nat} (hne : other ≠ layer) : c'.entries other = c.entries other := by
  unfold KVCache.entries KVCache.layer
  rw [h.layers, h.keyValueHeads, h.headDimension, List.getD_eq_getElem?_getD,
    List.getElem?_set_ne (Ne.symm hne), ← List.getD_eq_getElem?_getD]

/-- the layers behind `layer` are as they were -/
theorem Appends.drop {new : List (List K × List K)} (h : c.Appends layer position new c') :
    c'.memories.drop (layer + 1) = c.memories.drop (layer + 1) := by
  unfold memories
  rw [h.layers, h.keyValueHeads, h.headDimension, List.map_set,
    List.drop_set_of_lt (Nat.lt_succ_self layer)]

end KVCache

end HyperMoE.Transformer
