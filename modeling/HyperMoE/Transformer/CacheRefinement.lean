import Mathlib.Tactic.Ring
import HyperMoE.Transformer.CudaKVCache

/-!
# The two caches are one cache

* `Stored`, `Holds`, `Same`   what the device has of a tensor, of a layer and of a cache;
* `grow_spec`                 the loop that finds a new capacity;
* `wp_append`                 an append to both;
* `SameCache`                 what a caller can see, and how much memory it is;
* `calls_same`                after any calls the caches are the same.
-/

namespace HyperMoE.Transformer

open Lib Lib.Fallible Tensor

variable {K : Type}

/-! ## the growth of the capacity -/

/-- enough fuel: each round adds one at least -/
theorem grow_spec {maximum required : Nat} (hrequired : required ≤ maximum) :
    ∀ fuel capacity, 1 ≤ capacity → capacity ≤ maximum → required ≤ fuel + capacity →
      ∃ capacity', CudaKVCache.grow maximum required fuel capacity = some capacity' ∧
        required ≤ capacity' ∧ capacity' ≤ maximum := by
  intro fuel
  induction fuel with
  | zero =>
    intro capacity _ hmaximum henough
    refine ⟨capacity, ?_, by omega, hmaximum⟩
    exact if_neg (by omega)
  | succ fuel ih =>
    intro capacity hpos hmaximum henough
    unfold CudaKVCache.grow
    split
    · next hsmall =>
      split
      · exact ih maximum (by omega) (Nat.le_refl _) (by omega)
      · exact ih (capacity * 2) (by omega) (by omega) (by omega)
    · next hlarge => exact ⟨capacity, rfl, Nat.le_of_not_lt hlarge, hmaximum⟩

/-! ## tensors -/

/-- a tensor of `count` elements that begins with `front`; no tensor where there is nothing to store -/
def Stored (tensor : Option (List K)) (count : Nat) (front : List K) : Prop :=
  match tensor with
  | none => count = 0 ∧ front = []
  | some elements => elements.length = count ∧ 0 < count ∧ front <+: elements

theorem Stored.copyFrom {tensor : Option (List K)} {count : Nat} {front : List K}
    (h : Stored tensor count front) (hne : front ≠ []) :
    CudaKVCache.copyFrom tensor 0 front.length = .ok front := by
  cases tensor with
  | none => exact absurd h.2 hne
  | some elements =>
    obtain ⟨rfl, hpos, hfront⟩ := h
    have hlength := hfront.length_le
    show (CudaKVCache.sliceBytes (some elements) 0 front.length >>= _) = _
    unfold CudaKVCache.sliceBytes
    simp only []
    rw [if_neg (by omega), if_neg (by omega), if_neg (by omega), if_neg (by omega)]
    exact congrArg Except.ok (List.prefix_iff_eq_take.mp hfront).symm

/-- `source` behind what the tensor has -/
theorem Stored.copyInto {tensor : Option (List K)} {count : Nat} {front : List K}
    (h : Stored tensor count front) (offset : Nat) (source : List K) (hpos : 0 < count) (hoffset : offset = front.length * 4)
    (hfits : front.length + source.length ≤ count) :
    ∃ tensor', CudaKVCache.copyInto tensor offset source = .ok tensor' ∧
      Stored tensor' count (front ++ source) := by
  cases tensor with
  | none => exact absurd h.1 (by omega)
  | some elements =>
    obtain ⟨rfl, -, rest, rfl⟩ := h
    rw [List.length_append] at hpos hfits
    refine ⟨some (front ++ (source ++ rest.drop source.length)), ?_, ?_, ?_, ?_⟩
    · show (CudaKVCache.sliceBytes (some (front ++ rest)) offset source.length >>= _) = _
      unfold CudaKVCache.sliceBytes
      simp only []
      rw [List.length_append, if_neg (by omega), if_neg (by omega), if_neg (by omega),
        if_neg (by omega), show offset / 4 = front.length by omega]
      refine congrArg (fun elements => Except.ok (some elements)) ?_
      rw [List.take_left, ← List.drop_drop, List.drop_left]
    · simp only [List.length_append, List.length_drop]
      omega
    · rw [List.length_append]
      exact hpos
    · rw [← List.append_assoc]
      exact List.prefix_append _ _

theorem stored_allocateTensor (memory : Nat → K) {count : Nat} (hpos : 0 < count) :
    Stored (some (CudaKVCache.allocateTensor memory count)) count [] :=
  ⟨by rw [CudaKVCache.allocateTensor, List.length_map, List.length_range], hpos, List.nil_prefix⟩

/-! ## layers -/

structure Holds (heads dimension maximum : Nat) (s : LayerStorage K) (t : DeviceStorage K) : Prop where
  tokens : t.tokens = s.positions.length
  first : t.firstPosition = 0
  fits : t.tokens ≤ t.capacity
  bounded : t.capacity ≤ maximum
  keys : Stored t.keys (t.capacity * heads * dimension) s.keys
  values : Stored t.values (t.capacity * heads * dimension) s.values

section Holds
variable {heads dimension maximum : Nat} {s : LayerStorage K} {t : DeviceStorage K}

theorem holds_empty : Holds heads dimension maximum ({} : LayerStorage K) {} where
  tokens := rfl
  first := rfl
  fits := Nat.le_refl 0
  bounded := Nat.zero_le _
  keys := ⟨by rw [Nat.zero_mul, Nat.zero_mul], rfl⟩
  values := ⟨by rw [Nat.zero_mul, Nat.zero_mul], rfl⟩

theorem Holds.length (h : Holds heads dimension maximum s t)
    (hs : s.Sized (heads * dimension) maximum) :
    s.keys.length = t.tokens * heads * dimension ∧
      s.values.length = t.tokens * heads * dimension := by
  rw [h.tokens, Nat.mul_assoc]
  exact ⟨hs.keys, hs.values⟩

theorem holds_enlarge (fresh : Fresh K) {capacity : Nat} (h : Holds heads dimension maximum s t)
    (hs : s.Sized (heads * dimension) maximum) (hheads : 0 < heads) (hdimension : 0 < dimension)
    (hpos : 0 < capacity) (hfits : t.tokens ≤ capacity) (hbounded : capacity ≤ maximum) :
    ∃ t', CudaKVCache.enlarge fresh capacity heads dimension t = .ok t' ∧
      Holds heads dimension maximum s t' ∧ t'.capacity = capacity := by
  obtain ⟨hkeys, hvalues⟩ := h.length hs
  have hcount : 0 < capacity * heads * dimension :=
    Nat.mul_pos (Nat.mul_pos hpos hheads) hdimension
  have hle : t.tokens * heads * dimension ≤ capacity * heads * dimension :=
    Nat.mul_le_mul_right _ (Nat.mul_le_mul_right _ hfits)
  unfold CudaKVCache.enlarge
  by_cases htokens : t.tokens = 0
  · rw [htokens, Nat.zero_mul, Nat.zero_mul] at hkeys hvalues
    refine ⟨{ t with
      keys := some (CudaKVCache.allocateTensor fresh.keys (capacity * heads * dimension))
      values := some (CudaKVCache.allocateTensor fresh.values (capacity * heads * dimension))
      capacity }, if_neg (not_not_intro htokens), ?_, rfl⟩
    refine { h with fits := hfits, bounded := hbounded, keys := ?_, values := ?_ }
    · rw [List.eq_nil_of_length_eq_zero hkeys]
      exact stored_allocateTensor _ hcount
    · rw [List.eq_nil_of_length_eq_zero hvalues]
      exact stored_allocateTensor _ hcount
  · have hne : 0 < t.tokens * heads * dimension :=
      Nat.mul_pos (Nat.mul_pos (Nat.pos_of_ne_zero htokens) hheads) hdimension
    obtain ⟨keys', hkeys', hstored⟩ := (stored_allocateTensor fresh.keys hcount).copyInto 0 s.keys
      hcount (Nat.zero_mul 4).symm (by rw [hkeys]; simpa using hle)
    obtain ⟨values', hvalues', hstored'⟩ := (stored_allocateTensor fresh.values hcount).copyInto 0
      s.values hcount (Nat.zero_mul 4).symm (by rw [hvalues]; simpa using hle)
    have hfrom := h.keys.copyFrom (List.ne_nil_of_length_pos (hkeys ▸ hne))
    have hfrom' := h.values.copyFrom (List.ne_nil_of_length_pos (hvalues ▸ hne))
    rw [hkeys] at hfrom
    rw [hvalues] at hfrom'
    refine ⟨{ t with keys := keys', values := values', capacity }, ?_, ?_, rfl⟩
    · show (if t.tokens ≠ 0 then _ else _) = _
      rw [if_pos htokens, hfrom, hfrom']
      show (CudaKVCache.copyInto _ 0 s.keys >>= fun _ => CudaKVCache.copyInto _ 0 s.values >>= _) = _
      rw [hkeys', hvalues']
      rfl
    · exact { h with fits := hfits, bounded := hbounded, keys := hstored, values := hstored' }

end Holds

/-! ## caches -/

/-- what the constructors accept -/
theorem checkedCacheBytes_eq_ok {layers sequence heads dimension bytes : Nat}
    (h : KVCache.checkedCacheBytes layers sequence heads dimension = .ok bytes) :
    (0 < heads ∧ 0 < dimension) ∧
      bytes = layers * (sequence * (8 + 2 * (heads * dimension) * 4)) ∧ bytes ≤ KVCache.maxSize := by
  unfold KVCache.checkedCacheBytes at h
  split at h
  · exact nomatch h
  · next hnonzero =>
    rw [not_or, not_or, not_or, not_or] at hnonzero
    obtain ⟨-, -, hheads, hdimension, -⟩ := hnonzero
    split at h
    · exact nomatch h
    · next hvalues =>
      simp only [] at h
      split at h
      · exact nomatch h
      · next hperToken =>
        have hword : (8 + 2 * (heads * dimension) * 4) % 2 ^ 64 =
            8 + 2 * (heads * dimension) * 4 := by
          unfold KVCache.maxSize at hvalues
          omega
        rw [hword] at h
        split at h
        · exact nomatch h
        · next hlayers =>
          rw [not_or] at hlayers
          obtain rfl := Except.ok.inj h
          refine ⟨⟨Nat.pos_of_ne_zero hheads, Nat.pos_of_ne_zero hdimension⟩, Nat.mul_assoc _ _ _, ?_⟩
          rw [Nat.mul_assoc]
          exact (Nat.mul_le_mul_right _ (Nat.le_of_not_lt hlayers.2)).trans (Nat.div_mul_le_self _ _)

structure Same (c : KVCache K) (d : CudaKVCache K) : Prop where
  maximum : d.maximumSequenceLength = c.maximumSequenceLength
  keyValueHeads : d.keyValueHeads = c.keyValueHeads
  headDimension : d.headDimension = c.headDimension
  checked : ∃ bytes, c.maximumMemoryUsageBytes = .ok bytes
  length : d.layers.length = c.layers.length
  layers : ∀ layer, Holds c.keyValueHeads c.headDimension c.maximumSequenceLength (c.layer layer)
    (d.storage layer)

section Same
variable {c : KVCache K} {d : CudaKVCache K} {layer : Nat}

theorem Same.positive (h : Same c d) : 0 < c.keyValueHeads ∧ 0 < c.headDimension := by
  obtain ⟨bytes, hbytes⟩ := h.checked
  exact (checkedCacheBytes_eq_ok hbytes).1

/-- another storage for a layer of both -/
theorem Same.put {c' : KVCache K} {s : LayerStorage K} {t : DeviceStorage K} (h : Same c d)
    (hlayer : layer < c.layers.length) (hmaximum : c'.maximumSequenceLength = c.maximumSequenceLength)
    (hheads : c'.keyValueHeads = c.keyValueHeads) (hdimension : c'.headDimension = c.headDimension)
    (hlayers : c'.layers = c.layers.set layer s)
    (hholds : Holds c.keyValueHeads c.headDimension c.maximumSequenceLength s t) :
    Same c' (d.put layer t) where
  maximum := h.maximum.trans hmaximum.symm
  keyValueHeads := h.keyValueHeads.trans hheads.symm
  headDimension := h.headDimension.trans hdimension.symm
  checked := by
    unfold KVCache.maximumMemoryUsageBytes
    rw [hlayers, List.length_set, hmaximum, hheads, hdimension]
    exact h.checked
  length := by
    rw [hlayers, List.length_set]
    exact List.length_set.trans h.length
  layers other := by
    rw [hheads, hdimension, hmaximum]
    unfold KVCache.layer CudaKVCache.storage
    show Holds _ _ _ _ ((d.layers.set layer t).getD other {})
    rw [hlayers, getD_set _ _ _ hlayer, getD_set _ _ _ (h.length ▸ hlayer)]
    split
    · exact hholds
    · exact h.layers other

/-- another storage for a layer of the device, which holds the same -/
theorem Same.put_right {t : DeviceStorage K} (h : Same c d) (hlayer : layer < c.layers.length)
    (hholds : Holds c.keyValueHeads c.headDimension c.maximumSequenceLength (c.layer layer) t) :
    Same c (d.put layer t) := by
  refine h.put hlayer rfl rfl rfl ?_ hholds
  refine List.ext_getElem (List.length_set).symm fun i hi hi' => ?_
  rw [List.getElem_set]
  split
  · next heq =>
    subst heq
    exact (List.getD_eq_getElem _ _ hi).symm
  · rfl

theorem storage_put (t : DeviceStorage K) (hlayer : layer < d.layers.length) :
    (d.put layer t).storage layer = t :=
  (getD_set _ _ _ hlayer layer).trans (if_pos rfl)

theorem wp_provide (required : Nat) (fresh : Fresh K) (h : Same c d) (hlayer : layer < c.layers.length)
    (hrequired : (d.storage layer).tokens ≤ required) (hbounded : required ≤ c.maximumSequenceLength)
    (hpos : 0 < required) :
    wp (CudaKVCache.provide fresh layer required) (fun r d' => r = .ok () ∧ Same c d' ∧
      required ≤ (d'.storage layer).capacity) d := by
  unfold CudaKVCache.provide
  rw [wp_bind, wp_read]
  simp only []
  split
  · next hsmall =>
    obtain ⟨capacity, hgrow, hrequired', hcapacity⟩ := grow_spec hbounded required
      (max 1 (d.storage layer).capacity) (Nat.le_max_left _ _)
      (Nat.max_le.mpr ⟨Nat.le_trans hpos hbounded, (h.layers layer).bounded⟩) (by omega)
    obtain ⟨t, henlarge, hholds, rfl⟩ := holds_enlarge fresh (h.layers layer) (c.sized_layer layer)
      h.positive.1 h.positive.2 (Nat.lt_of_lt_of_le hpos hrequired')
      (Nat.le_trans hrequired hrequired') hcapacity
    rw [h.maximum, h.keyValueHeads, h.headDimension, wp_bind, wp_orThrow, hgrow]
    simp only []
    rw [wp_bind, wp_settle, henlarge]
    refine ⟨rfl, h.put_right hlayer hholds, ?_⟩
    show required ≤ ((d.put layer t).storage layer).capacity
    rw [storage_put _ (h.length ▸ hlayer)]
    exact hrequired'
  · next hlarge => exact ⟨rfl, h, Nat.le_of_not_lt hlarge⟩

theorem put_put (t t' : DeviceStorage K) : (d.put layer t).put layer t' = d.put layer t' := by
  unfold CudaKVCache.put
  rw [List.set_set]

theorem wp_store {c' : KVCache K} {first : Nat} {keys values : HeadView K} (h : Same c d)
    (hextended : KVCache.Extended c layer first keys values c')
    (hcapacity : first + keys.tokens ≤ (d.storage layer).capacity) :
    wp (CudaKVCache.store layer first (first + keys.tokens) keys values)
      (fun r d' => r = .ok () ∧ Same c' d') d := by
  have hlayer := hextended.layer_lt
  have hholds := h.layers layer
  have htokens : (d.storage layer).tokens = first := hholds.tokens.trans hextended.position
  obtain ⟨hkeys, hvalues⟩ := hholds.length (c.sized_layer layer)
  rw [htokens] at hkeys hvalues
  -- the views as they are counted by the cache
  have hkeys' : keys.values.length = keys.tokens * c.keyValueHeads * c.headDimension := by
    rw [keys.sized, hextended.heads.1, hextended.dimension.1]
  have hvalues' : values.values.length = keys.tokens * c.keyValueHeads * c.headDimension := by
    rw [values.sized, ← hextended.tokens, hextended.heads.2, hextended.dimension.2]
  have hfits : first * c.keyValueHeads * c.headDimension +
      keys.tokens * c.keyValueHeads * c.headDimension ≤
        (d.storage layer).capacity * c.keyValueHeads * c.headDimension := by
    rw [← Nat.add_mul, ← Nat.add_mul]
    exact Nat.mul_le_mul_right _ (Nat.mul_le_mul_right _ hcapacity)
  have hcount : 0 < (d.storage layer).capacity * c.keyValueHeads * c.headDimension := by
    have hpos := Nat.pos_of_ne_zero hextended.tokens_ne_zero
    exact Nat.mul_pos (Nat.mul_pos (by omega) h.positive.1) h.positive.2
  obtain ⟨storedKeys, hcopy, hstored⟩ := hholds.keys.copyInto
    (first * c.keyValueHeads * c.headDimension * 4) keys.values hcount (by rw [hkeys]) (by rw [hkeys, hkeys']; exact hfits)
  obtain ⟨storedValues, hcopy', hstored'⟩ := hholds.values.copyInto
    (first * c.keyValueHeads * c.headDimension * 4) values.values hcount (by rw [hvalues]) (by rw [hvalues, hvalues']; exact hfits)
  unfold CudaKVCache.store
  rw [wp_bind, wp_read]
  simp only [wp_bind, wp_settle, wp_update]
  rw [htokens, h.keyValueHeads, h.headDimension, hcopy]
  simp only []
  rw [hcopy']
  refine ⟨trivial, ?_⟩
  rw [put_put, put_put]
  refine h.put hlayer hextended.maximum hextended.keyValueHeads hextended.headDimension
    hextended.layers ?_
  refine { hholds with tokens := ?_, first := ?_, fits := hcapacity, keys := hstored, values := hstored' }
  · show first + keys.tokens = ((c.layer layer).positions ++ _).length
    rw [List.length_append, List.length_map, List.length_range, hextended.position]
  · show (if first = 0 then first else (d.storage layer).firstPosition) = 0
    split
    · assumption
    · exact hholds.first

/-- what the guards of both ask of an append -/
def Fits (c : KVCache K) (layer first : Nat) (keys values : HeadView K) : Prop :=
  layer < c.layers.length ∧ (keys.tokens = values.tokens ∧ keys.heads = values.heads ∧
    keys.dimension = values.dimension) ∧
  (keys.heads = c.keyValueHeads ∧ keys.dimension = c.headDimension) ∧
  first = (c.layer layer).positions.length ∧
  keys.tokens ≤ c.maximumSequenceLength - (c.layer layer).positions.length

theorem Fits.appended {first : Nat} {keys values : HeadView K} (h : Fits c layer first keys values)
    (hne : keys.tokens ≠ 0) : ∃ c', c.appended layer first keys values = .ok c' := by
  obtain ⟨hlayer, hshape, hheads, hposition⟩ := h
  unfold KVCache.appended
  rw [if_neg (Nat.not_le.mpr hlayer), dif_pos hshape, if_neg hne, dif_pos hheads, dif_pos hposition]
  exact ⟨_, rfl⟩

theorem wp_append {first : Nat} {keys values : HeadView K} (fresh : Fresh K) (h : Same c d)
    (hne : keys.tokens ≠ 0) :
    wp (CudaKVCache.append layer first keys values fresh) (fun r d' =>
      match c.appended layer first keys values with
      | .ok c' => r = .ok () ∧ Same c' d'
      | .error _ => (∃ e, r = .error e) ∧ d' = d) d := by
  have htokens := (h.layers layer).tokens
  unfold CudaKVCache.append
  rw [wp_bind, wp_read]
  simp only [wp_bind, wp_throwIf]
  rw [htokens, h.length, h.keyValueHeads, h.headDimension, h.maximum]
  cases happended : c.appended layer first keys values with
  | ok c' =>
    have hextended := KVCache.appended_eq_ok.mp happended
    have hcapacity := hextended.capacity
    have hposition := hextended.position
    rw [if_neg, if_neg, hposition]
    · refine wp_mono (wp_provide (first + keys.tokens) fresh h hextended.layer_lt
        (htokens.trans hposition ▸ Nat.le_add_right _ _) hcapacity (by omega)) ?_
      rintro r d₁ ⟨rfl, h₁, hroom⟩
      exact wp_store h₁ hextended hroom
    · rintro (hfirst | hroom) <;> omega
    · have hlayer := hextended.layer_lt
      rintro (hlayer' | hshape | hheads | hdimension)
      · omega
      · exact hshape ⟨hextended.tokens, hextended.heads.1.trans hextended.heads.2.symm,
          hextended.dimension.1.trans hextended.dimension.2.symm⟩
      · exact hheads hextended.heads.1
      · exact hdimension hextended.dimension.1
  | error e =>
    split
    · exact ⟨⟨_, rfl⟩, trivial⟩
    · next hmetadata =>
      rw [not_or, not_or, not_or, not_not, not_not, not_not] at hmetadata
      obtain ⟨hlayer, hshape, hheads, hdimension⟩ := hmetadata
      split
      · exact ⟨⟨_, rfl⟩, trivial⟩
      · next hposition =>
        rw [not_or, not_not] at hposition
        have hfits : Fits c layer first keys values := ⟨Nat.lt_of_not_le hlayer, hshape,
          ⟨hheads, hdimension⟩, hposition.1, Nat.le_of_not_lt hposition.2⟩
        obtain ⟨c', hc'⟩ := hfits.appended hne
        rw [happended] at hc'
        cases hc'

/-! ## snapshots -/

theorem gives_snapshot (h : Same c d) (hlayer : layer < c.layers.length) :
    Gives (CudaKVCache.snapshot layer) d (c.copy layer) d := by
  have hholds := h.layers layer
  have hsized := c.sized_layer layer
  obtain ⟨hkeys, hvalues⟩ := hholds.length hsized
  unfold CudaKVCache.snapshot
  rw [gives_read_bind, gives_throwIf_bind]
  refine ⟨Nat.not_le.mpr (h.length ▸ hlayer), ?_⟩
  rw [h.keyValueHeads, h.headDimension]
  simp only []
  have hpositions : (c.layer layer).positions =
      (List.range (d.storage layer).tokens).map fun token => (d.storage layer).firstPosition + token := by
    rw [hholds.first, hholds.tokens]
    refine hsized.positions.trans ?_
    simp only [Nat.zero_add, List.map_id']
  split
  · next hzero =>
    rw [hzero, Nat.zero_mul, Nat.zero_mul] at hkeys hvalues
    rw [hzero] at hpositions
    rw [gives_pure]
    refine ⟨?_, rfl⟩
    unfold KVCache.copy
    rw [hpositions, List.eq_nil_of_length_eq_zero hkeys, List.eq_nil_of_length_eq_zero hvalues]
    rfl
  · next hne =>
    have hpos : 0 < (d.storage layer).tokens * c.keyValueHeads * c.headDimension :=
      Nat.mul_pos (Nat.mul_pos (Nat.pos_of_ne_zero hne) h.positive.1) h.positive.2
    have hfrom := hholds.keys.copyFrom (List.ne_nil_of_length_pos (hkeys ▸ hpos))
    have hfrom' := hholds.values.copyFrom (List.ne_nil_of_length_pos (hvalues ▸ hpos))
    rw [hkeys] at hfrom
    rw [hvalues] at hfrom'
    rw [hfrom, hfrom', gives_ok_bind, gives_ok_bind, gives_pure]
    refine ⟨?_, rfl⟩
    unfold KVCache.copy
    rw [hpositions]

/-! ## memory -/

theorem foldl_usage_le {α : Type} (f : α → Nat) (m b : Nat) (l : List α) (hf : ∀ a ∈ l, f a ≤ b)
    (n : Nat) : l.foldl (fun result a => (result + f a) % m) n ≤ n + l.length * b := by
  induction l generalizing n with
  | nil => exact Nat.le_add_right _ _
  | cons a l ih =>
    have ha := hf a List.mem_cons_self
    have hmod := Nat.mod_le (n + f a) m
    have htail := ih (fun a' ha' => hf a' (List.mem_cons_of_mem _ ha')) ((n + f a) % m)
    rw [List.foldl_cons, List.length_cons, Nat.succ_mul]
    omega

theorem usage_le (c : KVCache K) : c.memoryUsageBytes ≤ c.layers.length *
    (c.maximumSequenceLength * (8 + 2 * (c.keyValueHeads * c.headDimension) * 4)) := by
  refine (foldl_usage_le _ _ _ _ (fun s hs => ?_) 0).trans (Nat.zero_add _).le
  have hsized := c.sized s hs
  rw [hsized.keys, hsized.values]
  calc s.positions.length * 8 + (s.positions.length * (c.keyValueHeads * c.headDimension) +
        s.positions.length * (c.keyValueHeads * c.headDimension)) * 4
      = s.positions.length * (8 + 2 * (c.keyValueHeads * c.headDimension) * 4) := by ring
    _ ≤ _ := Nat.mul_le_mul_right _ hsized.capacity

theorem Stored.bytes {tensor : Option (List K)} {count : Nat} {front : List K}
    (h : Stored tensor count front) : tensor.elim 0 (·.length * 4) = count * 4 := by
  cases tensor with
  | none => exact (by rw [h.1] : 0 = count * 4)
  | some elements => exact congrArg (· * 4) h.1

theorem Holds.bytes_le {heads dimension maximum : Nat} {s : LayerStorage K} {t : DeviceStorage K}
    (h : Holds heads dimension maximum s t) :
    CudaKVCache.layerBytes t ≤ maximum * (8 + 2 * (heads * dimension) * 4) := by
  unfold CudaKVCache.layerBytes
  rw [h.keys.bytes, h.values.bytes]
  calc (t.capacity * heads * dimension * 4 + t.capacity * heads * dimension * 4 + t.tokens * 8) % 2 ^ 64
      ≤ t.capacity * heads * dimension * 4 + t.capacity * heads * dimension * 4 + t.tokens * 8 :=
        Nat.mod_le _ _
    _ ≤ t.capacity * heads * dimension * 4 + t.capacity * heads * dimension * 4 + t.capacity * 8 :=
        Nat.add_le_add_left (Nat.mul_le_mul_right _ h.fits) _
    _ = t.capacity * (8 + 2 * (heads * dimension) * 4) := by ring
    _ ≤ _ := Nat.mul_le_mul_right _ h.bounded

theorem foldlM_usage (b : Nat) (l : List (DeviceStorage K))
    (hl : ∀ t ∈ l, CudaKVCache.layerBytes t ≤ b) (n : Nat)
    (hn : n + l.length * b ≤ KVCache.maxSize) :
    ∃ usage, l.foldlM CudaKVCache.addUsage n = .ok usage ∧ usage ≤ n + l.length * b := by
  induction l generalizing n with
  | nil => exact ⟨n, rfl, Nat.le_add_right _ _⟩
  | cons t l ih =>
    have ht := hl t List.mem_cons_self
    rw [List.length_cons, Nat.succ_mul] at hn ⊢
    obtain ⟨usage, husage, hle⟩ := ih (fun t' ht' => hl t' (List.mem_cons_of_mem _ ht'))
      (n + CudaKVCache.layerBytes t) (by omega)
    refine ⟨usage, ?_, by omega⟩
    rw [List.foldlM_cons, CudaKVCache.addUsage, if_neg (by omega)]
    exact husage

theorem Same.usage (h : Same c d) {bytes : Nat} (hbytes : c.maximumMemoryUsageBytes = .ok bytes) :
    c.memoryUsageBytes ≤ bytes ∧ ∃ usage, d.memoryUsageBytes = .ok usage ∧ usage ≤ bytes := by
  obtain ⟨-, rfl, hmax⟩ := checkedCacheBytes_eq_ok hbytes
  refine ⟨usage_le c, ?_⟩
  have hlayers : ∀ t ∈ d.layers, CudaKVCache.layerBytes t ≤
      c.maximumSequenceLength * (8 + 2 * (c.keyValueHeads * c.headDimension) * 4) := by
    intro t ht
    obtain ⟨layer, hlayer, rfl⟩ := List.mem_iff_getElem.mp ht
    have hholds := h.layers layer
    rw [CudaKVCache.storage, List.getD_eq_getElem _ _ hlayer] at hholds
    exact hholds.bytes_le
  obtain ⟨usage, husage, hle⟩ := foldlM_usage _ d.layers hlayers 0 (by
    rw [h.length, Nat.zero_add]
    exact hmax)
  refine ⟨usage, husage, ?_⟩
  rwa [h.length, Nat.zero_add] at hle

end Same

/-! ## any calls -/

/-- a view with a shape: no dimension of a shape is zero -/
structure ShapedView (K : Type) extends HeadView K where
  nonzero : tokens ≠ 0 ∧ heads ≠ 0 ∧ dimension ≠ 0

inductive Call (K : Type) where
  /-- `fresh` is in the memory that the device gives, if it is asked for some -/
  | append (layer firstPosition : Nat) (keys values : ShapedView K) (fresh : Fresh K)
  | clear (layer : Nat)
  | reset
  | snapshot (layer : Nat)

def KVCache.perform : Call K → Fallible StdError (KVCache K) (Option (KVCacheSnapshot K))
  | .append layer firstPosition keys values _ => do
    KVCache.append layer firstPosition keys.toHeadView values.toHeadView
    return none
  | .clear layer => do
    KVCache.clear layer
    return none
  | .reset => do
    KVCache.reset
    return none
  | .snapshot layer => do return some (← KVCache.snapshot layer)

def CudaKVCache.perform : Call K → Fallible StdError (CudaKVCache K) (Option (KVCacheSnapshot K))
  | .append layer firstPosition keys values fresh => do
    CudaKVCache.append layer firstPosition keys.toHeadView values.toHeadView fresh
    return none
  | .clear layer => do
    CudaKVCache.clear layer
    return none
  | .reset => do
    CudaKVCache.reset
    return none
  | .snapshot layer => do return some (← CudaKVCache.snapshot layer)

/-- the cache after the calls, of which some may have thrown -/
def KVCache.after (c : KVCache K) (calls : List (Call K)) : KVCache K :=
  calls.foldl (fun c call => ((KVCache.perform call).exec c).2) c

def CudaKVCache.after (d : CudaKVCache K) (calls : List (Call K)) : CudaKVCache K :=
  calls.foldl (fun d call => ((CudaKVCache.perform call).exec d).2) d

/-- both return the same, or both throw and are as they were -/
def SameAnswer (call : Call K) (c : KVCache K) (d : CudaKVCache K) : Prop :=
  match (KVCache.perform call).exec c, (CudaKVCache.perform call).exec d with
  | (.ok a, _), (.ok b, _) => a = b
  | (.error _, c'), (.error _, d') => c' = c ∧ d' = d
  | _, _ => False

/-- what can be seen of the two caches, and what memory they have -/
structure SameCache (c : KVCache K) (d : CudaKVCache K) : Prop where
  layerCount : d.layers.length = c.layers.length
  tokens : ∀ layer, (d.storage layer).tokens = (c.layer layer).positions.length
  snapshots : ∀ layer < c.layers.length, ∃ s, Gives (KVCache.snapshot layer) c s c ∧
    Gives (CudaKVCache.snapshot layer) d s d ∧ s.positions = List.range s.tokenCount
  capacity : ∀ layer, (d.storage layer).tokens ≤ (d.storage layer).capacity ∧
    (d.storage layer).capacity ≤ d.maximumSequenceLength
  growth : ∀ layer required, required ≤ d.maximumSequenceLength → 0 < required →
    ∃ capacity, CudaKVCache.grow d.maximumSequenceLength required required
      (max 1 (d.storage layer).capacity) = some capacity ∧
      required ≤ capacity ∧ capacity ≤ d.maximumSequenceLength
  usage : ∃ bytes, c.maximumMemoryUsageBytes = .ok bytes ∧ d.maximumMemoryUsageBytes = .ok bytes ∧
    c.memoryUsageBytes ≤ bytes ∧ ∃ usage, d.memoryUsageBytes = .ok usage ∧ usage ≤ bytes

section
variable {c : KVCache K} {d : CudaKVCache K}

theorem Same.sameCache (h : Same c d) : SameCache c d where
  layerCount := h.length
  tokens layer := (h.layers layer).tokens
  snapshots layer hlayer := ⟨c.copy layer, KVCache.gives_snapshot.mpr ⟨hlayer, rfl, rfl⟩,
    gives_snapshot h hlayer, (c.sized_layer layer).positions⟩
  capacity layer := ⟨(h.layers layer).fits, h.maximum ▸ (h.layers layer).bounded⟩
  growth layer required hrequired hpos := by
    have hbounded := (h.layers layer).bounded
    rw [h.maximum] at hrequired ⊢
    exact grow_spec hrequired required _ (Nat.le_max_left _ _)
      (Nat.max_le.mpr ⟨Nat.le_trans hpos hrequired, hbounded⟩) (Nat.le_add_right _ _)
  usage := by
    obtain ⟨bytes, hbytes⟩ := h.checked
    refine ⟨bytes, hbytes, ?_, h.usage hbytes⟩
    unfold CudaKVCache.maximumMemoryUsageBytes KVCache.make
    rw [h.length, h.maximum, h.keyValueHeads, h.headDimension]
    have hmade : KVCache.checkedCacheBytes c.layers.length c.maximumSequenceLength c.keyValueHeads
      c.headDimension = .ok bytes := hbytes
    rw [hmade]
    show KVCache.checkedCacheBytes (List.replicate c.layers.length _).length _ _ _ = _
    rw [List.length_replicate]
    exact hmade

theorem same_make {available : Bool} {layers sequence heads dimension : Nat}
    (hc : KVCache.make K layers sequence heads dimension = .ok c)
    (hd : CudaKVCache.make K available layers sequence heads dimension = .ok d) : Same c d := by
  unfold KVCache.make at hc
  unfold CudaKVCache.make KVCache.make at hd
  cases hbytes : KVCache.checkedCacheBytes layers sequence heads dimension with
  | error e =>
    rw [hbytes] at hc
    exact nomatch hc
  | ok bytes =>
    rw [hbytes] at hc hd
    obtain rfl := Except.ok.inj hc
    cases available with
    | false => exact nomatch hd
    | true =>
      replace hd : (KVCache.checkedCacheBytes (List.replicate layers _).length sequence heads dimension
        >>= fun _ => .ok (⟨sequence, heads, dimension, List.replicate layers {}⟩ : CudaKVCache K)) =
          .ok d := hd
      rw [List.length_replicate, hbytes] at hd
      obtain rfl := Except.ok.inj hd
      refine ⟨rfl, rfl, rfl, ⟨bytes, ?_⟩, ?_, fun layer => ?_⟩
      · show KVCache.checkedCacheBytes (List.replicate layers _).length sequence heads dimension = _
        rw [List.length_replicate]
        exact hbytes
      · show (List.replicate layers _).length = (List.replicate layers _).length
        rw [List.length_replicate, List.length_replicate]
      · show Holds _ _ _ ((List.replicate layers {}).getD layer {})
          ((List.replicate layers {}).getD layer {})
        rw [List.getD_eq_getElem?_getD, List.getElem?_getD_replicate_default_eq,
          List.getD_eq_getElem?_getD, List.getElem?_getD_replicate_default_eq]
        exact holds_empty

/-- both return the same and leave the same, or both throw and leave all as it was -/
def Agree {α : Type} (x : Fallible StdError (KVCache K) α) (y : Fallible StdError (CudaKVCache K) α)
    (c : KVCache K) (d : CudaKVCache K) : Prop :=
  match x.exec c, y.exec d with
  | (.ok a, c'), (.ok b, d') => a = b ∧ Same c' d'
  | (.error _, c'), (.error _, d') => c' = c ∧ d' = d
  | _, _ => False

theorem Agree.map {α β : Type} {x : Fallible StdError (KVCache K) α}
    {y : Fallible StdError (CudaKVCache K) α} (h : Agree x y c d) (f : α → β) :
    Agree (do return f (← x)) (do return f (← y)) c d := by
  unfold Agree at h ⊢
  rw [exec_bind, exec_bind]
  cases hx : x.exec c with
  | mk r c' =>
    cases hy : y.exec d with
    | mk r' d' =>
      rw [hx, hy] at h
      cases r with
      | ok a =>
        cases r' with
        | ok b => exact ⟨congrArg f h.1, h.2⟩
        | error e => exact h
      | error e =>
        cases r' with
        | ok b => exact h
        | error e' => exact h

theorem agree_append {layer first : Nat} {keys values : HeadView K} (fresh : Fresh K) (h : Same c d)
    (hne : keys.tokens ≠ 0) : Agree (KVCache.append layer first keys values)
      (CudaKVCache.append layer first keys values fresh) c d := by
  have happend : wp (CudaKVCache.append layer first keys values fresh) _ d := wp_append fresh h hne
  unfold wp at happend
  unfold Agree
  cases happended : c.appended layer first keys values with
  | ok c' =>
    have hexec : (KVCache.append layer first keys values).exec c = (.ok (), c') :=
      KVCache.gives_append.mpr (KVCache.appended_eq_ok.mp happended)
    rw [happended] at happend
    rw [hexec, show (CudaKVCache.append layer first keys values fresh).exec d = (.ok (), _) from
      Prod.ext happend.1 rfl]
    exact ⟨rfl, happend.2⟩
  | error e =>
    have hexec : (KVCache.append layer first keys values).exec c = (.error e, c) := by
      show ((settle (c.appended layer first keys values) >>= _).exec c : _ × _) = _
      rw [exec_bind, happended]
      rfl
    rw [happended] at happend
    obtain ⟨⟨e', he'⟩, hd⟩ := happend
    rw [hexec, show (CudaKVCache.append layer first keys values fresh).exec d = (.error e', d) from
      Prod.ext he' hd]
    exact ⟨rfl, rfl⟩

/-- the guard that the layer exists -/
theorem Agree.guard {α : Type} {layer : Nat} {e e' : StdError}
    {k : KVCache K → Fallible StdError (KVCache K) α}
    {k' : CudaKVCache K → Fallible StdError (CudaKVCache K) α} (h : Same c d)
    (hk : layer < c.layers.length → Agree (k c) (k' d) c d) :
    Agree (do
      let c ← read
      throwIf (layer ≥ c.layers.length) e
      k c) (do
      let d ← read
      throwIf (layer ≥ d.layers.length) e'
      k' d) c d := by
  show (match ((throwIf (layer ≥ c.layers.length) e : Fallible _ _ _) >>= fun _ => k c).exec c,
    ((throwIf (layer ≥ d.layers.length) e' : Fallible _ _ _) >>= fun _ => k' d).exec d with
    | (.ok a, c'), (.ok b, d') => a = b ∧ Same c' d'
    | (.error _, c'), (.error _, d') => c' = c ∧ d' = d
    | _, _ => False)
  rw [exec_throwIf_bind, exec_throwIf_bind, h.length]
  by_cases hlayer : layer ≥ c.layers.length
  · rw [if_pos hlayer, if_pos hlayer]
    exact ⟨rfl, rfl⟩
  · rw [if_neg hlayer, if_neg hlayer]
    exact hk (Nat.lt_of_not_le hlayer)

theorem agree_clear (layer : Nat) (h : Same c d) :
    Agree (KVCache.clear layer) (CudaKVCache.clear layer) c d :=
  Agree.guard h fun hlayer => ⟨rfl, h.put hlayer rfl rfl rfl rfl holds_empty⟩

theorem agree_reset (h : Same c d) : Agree KVCache.reset (CudaKVCache.reset (K := K)) c d := by
  refine ⟨rfl, rfl.trans h.maximum, h.keyValueHeads, h.headDimension, ?_, ?_, fun layer => ?_⟩
  · show ∃ bytes, KVCache.checkedCacheBytes (c.layers.map _).length _ _ _ = .ok bytes
    rw [List.length_map]
    exact h.checked
  · show (d.layers.map _).length = (c.layers.map _).length
    rw [List.length_map, List.length_map]
    exact h.length
  · show Holds _ _ _ ((c.layers.map fun _ => {}).getD layer {}) ((d.layers.map fun _ => {}).getD layer {})
    rw [List.map_const', List.map_const', List.getD_eq_getElem?_getD,
      List.getElem?_getD_replicate_default_eq, List.getD_eq_getElem?_getD,
      List.getElem?_getD_replicate_default_eq]
    exact holds_empty

theorem agree_snapshot (layer : Nat) (h : Same c d) :
    Agree (KVCache.snapshot layer) (CudaKVCache.snapshot layer) c d := by
  rcases Nat.lt_or_ge layer c.layers.length with hlayer | hlayer
  · have hc : (KVCache.snapshot layer).exec c = (.ok (c.copy layer), c) :=
      KVCache.gives_snapshot.mpr ⟨hlayer, rfl, rfl⟩
    have hd : (CudaKVCache.snapshot layer).exec d = (.ok (c.copy layer), d) := gives_snapshot h hlayer
    unfold Agree
    rw [hc, hd]
    exact ⟨rfl, h⟩
  · exact Agree.guard h fun hlt => absurd hlt (Nat.not_lt.mpr hlayer)

theorem agree_perform (h : Same c d) (call : Call K) :
    Agree (KVCache.perform call) (CudaKVCache.perform call) c d := by
  cases call with
  | append layer first keys values fresh =>
    exact (agree_append fresh h keys.nonzero.1).map fun _ => none
  | clear layer => exact (agree_clear layer h).map fun _ => none
  | reset => exact (agree_reset h).map fun _ => none
  | snapshot layer => exact (agree_snapshot layer h).map some

/-- a call to both -/
theorem same_perform (h : Same c d) (call : Call K) : SameAnswer call c d ∧
    Same ((KVCache.perform call).exec c).2 ((CudaKVCache.perform call).exec d).2 := by
  have hagree := agree_perform h call
  unfold Agree at hagree
  unfold SameAnswer
  cases hc : (KVCache.perform call).exec c with
  | mk r c' =>
    cases hd : (CudaKVCache.perform call).exec d with
    | mk r' d' =>
      rw [hc, hd] at hagree
      cases r with
      | ok a =>
        cases r' with
        | ok b => exact ⟨hagree.1, hagree.2⟩
        | error e => exact hagree.elim
      | error e =>
        cases r' with
        | ok b => exact hagree.elim
        | error e' =>
          obtain ⟨rfl, rfl⟩ := hagree
          exact ⟨⟨rfl, rfl⟩, h⟩

theorem same_after (h : Same c d) (calls : List (Call K)) : Same (c.after calls) (d.after calls) := by
  induction calls generalizing c d with
  | nil => exact h
  | cons call calls ih => exact ih (same_perform h call).2

/-- whatever the calls so far: the caches are the same, and they answer the next one alike -/
theorem calls_same {available : Bool} {layers sequence heads dimension : Nat}
    (hc : KVCache.make K layers sequence heads dimension = .ok c)
    (hd : CudaKVCache.make K available layers sequence heads dimension = .ok d)
    (calls : List (Call K)) : SameCache (c.after calls) (d.after calls) ∧
      ∀ call, SameAnswer call (c.after calls) (d.after calls) := by
  have hsame := same_after (same_make hc hd) calls
  exact ⟨hsame.sameCache, fun call => (same_perform hsame call).1⟩

end

/-- one layer of two tokens -/
theorem calls_same_two_tokens : ∃ c d, KVCache.make Nat 1 2 1 1 = .ok c ∧
    CudaKVCache.make Nat true 1 2 1 1 = .ok d ∧
    ∀ calls, SameCache (c.after calls) (d.after calls) ∧
      ∀ call, SameAnswer call (c.after calls) (d.after calls) := by
  have hc : ∃ c, KVCache.make Nat 1 2 1 1 = .ok c := ⟨_, rfl⟩
  have hd : ∃ d, CudaKVCache.make Nat true 1 2 1 1 = .ok d := ⟨_, rfl⟩
  obtain ⟨c, hc⟩ := hc
  obtain ⟨d, hd⟩ := hd
  exact ⟨c, d, hc, hd, calls_same hc hd⟩

end HyperMoE.Transformer
