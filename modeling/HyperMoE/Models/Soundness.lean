import HyperMoE.Models.Validate

/-!
# What validation promises

Every fact that an accepted manifest has by its checks, over exact integers.

* `TensorSound`, `ProjectionSound`, `BindingSound`   a tensor, and a reference to one;
* `Sound`                                            the whole manifest;
* `distinct_covers`                                  distinct numbers below their count are all of them;
* `validate_sound`                                   accepted manifests are sound.
-/

namespace HyperMoE.Models

open Lib Lib.Fallible Tensor

/-! ## statements -/

/-- the bytes are those that the shape spans, and they end below 2^64 -/
structure TensorSound (t : ManifestTensor) : Prop where
  size : t.size.toNat = span (t.shape.dimensions.zip t.shape.strides) * t.dtype.sizeOf.toNat
  contiguous : t.shape.isContiguous = true →
    t.size.toNat = (t.shape.dimensions.map UInt64.toNat).prod * t.dtype.sizeOf.toNat
  bounded : t.offset.toNat + t.size.toNat < 2 ^ 64

/-- the dimensions of a matrix in a layout -/
def layoutDimensions {α : Type} (layout : TensorLayout) (input output : α) : List α :=
  match layout with
  | .InputOutput => [input, output]
  | .OutputInput => [output, input]

/-- the range lies inside the tensor that it names, and is a matrix of the layout -/
def ProjectionSound (m : ModelManifest) (p : ProjectionLocation) (input output : UInt64) : Prop :=
  (∃ t ∈ m.tensors, t.name = p.tensorName ∧ t.offset.toNat ≤ p.offset.toNat ∧
    p.offset.toNat + p.size.toNat ≤ t.offset.toNat + t.size.toNat) ∧
  p.shape.dimensions = layoutDimensions p.layout input output

/-- the tensor that is named is a matrix of the layout, over exact integers -/
def BindingSound (m : ModelManifest) (b : ManifestTensorBinding) (input output : Nat) : Prop :=
  ∃ t ∈ m.tensors, t.name = b.tensorName ∧
    t.shape.dimensions.map UInt64.toNat = layoutDimensions b.layout input output

/-- the projections of a layer, where the widths are words -/
structure LayerSound (m : ModelManifest) (runtime : Runtime.ModelArchitecture)
    (layer : ManifestLayerMapping) : Prop where
  query : runtime.attentionHeads.toNat * runtime.projectionHeadDimension.toNat < 2 ^ 64 →
    BindingSound m layer.queryProjection runtime.hiddenDimension.toNat
      (runtime.attentionHeads.toNat * runtime.projectionHeadDimension.toNat) ∧
    BindingSound m layer.outputProjection
      (runtime.attentionHeads.toNat * runtime.projectionHeadDimension.toNat)
      runtime.hiddenDimension.toNat
  keyValue : runtime.keyValueHeads.toNat * runtime.projectionHeadDimension.toNat < 2 ^ 64 →
    BindingSound m layer.keyProjection runtime.hiddenDimension.toNat
      (runtime.keyValueHeads.toNat * runtime.projectionHeadDimension.toNat) ∧
    BindingSound m layer.valueProjection runtime.hiddenDimension.toNat
      (runtime.keyValueHeads.toNat * runtime.projectionHeadDimension.toNat)

/-- the mappings of a layer -/
def ModelManifest.expertsOf (m : ModelManifest) (layer : UInt32) : List ManifestExpertMapping :=
  m.experts.filter fun e => e.layerId = layer

structure Sound (m : ModelManifest) : Prop where
  tensors : ∀ t ∈ m.tensors, TensorSound t
  names : (m.tensors.map ManifestTensor.name).Nodup
  projections : ∀ e ∈ m.experts,
    ProjectionSound m e.gate m.config.hiddenSize m.config.intermediateSize ∧
    ProjectionSound m e.up m.config.hiddenSize m.config.intermediateSize ∧
    ProjectionSound m e.down m.config.intermediateSize m.config.hiddenSize
  /-- a layer with experts has all of them, and one router -/
  complete : ∀ layer, m.expertsOf layer ≠ [] →
    ((m.expertsOf layer).map fun e => e.expertId.toNat).Perm (List.range m.config.expertCount.toNat) ∧
    ∃ r, m.router.tensors.filter (fun r => r.layerId = layer) = [r] ∧
      ∃ t ∈ m.tensors, t.name = r.tensorName ∧
        t.shape.dimensions = layoutDimensions m.router.layout m.config.hiddenSize m.config.expertCount
  layers : m.layers ≠ [] → ∃ runtime, m.runtimeArchitecture = some runtime ∧
    (m.layers.map fun layer => layer.layerId.toNat).Perm (List.range m.config.layerCount.toNat) ∧
    ∀ layer ∈ m.layers, LayerSound m runtime layer

/-! ## counting -/

/-- distinct numbers below `n`, and `n` of them, are all the numbers below `n` -/
theorem distinct_covers {ids : List Nat} {n : Nat} (hnodup : ids.Nodup) (hlt : ∀ i ∈ ids, i < n)
    (hlen : ids.length = n) : ids.Perm (List.range n) := by
  have hsub : ids ⊆ List.range n := fun i hi => List.mem_range.mpr (hlt i hi)
  refine (hnodup.subperm hsub).perm_of_length_le ?_
  rw [List.length_range, hlen]

/-! ## tensors -/

theorem returns_requiredBytes (shape : Shape) (dtype : DType) :
    Returns (requiredBytes shape dtype) fun bytes =>
      bytes.toNat = shape.storageElementCount.toNat * dtype.sizeOf.toNat := by
  refine Returns.guard fun hzero => Returns.guard fun hle => ?_
  intro exact
  refine Watched.wp_mul (Watched.exact_mul (UInt64.not_lt.mp hle) hzero) fun c hc => ?_
  exact fun a ha => Except.ok.inj ha ▸ hc

/-- the table has the tensors seen so far under their names -/
structure TensorsSeen (seen : List ManifestTensor) (byName : ByName) : Prop where
  sound : ∀ t ∈ seen, TensorSound t
  names : (seen.map ManifestTensor.name).Nodup
  found : ∀ name t, byName.lookup name = some t → t ∈ seen ∧ t.name = name
  known : ∀ t ∈ seen, (byName.lookup t.name).isSome = true

theorem tensorSound {t : ManifestTensor} (hbounded : t.offset.toNat + t.size.toNat < 2 ^ 64)
    (hsize : t.size.toNat = t.shape.storageElementCount.toNat * t.dtype.sizeOf.toNat) :
    TensorSound t where
  size := by rw [hsize, t.shape.counts.storageElementCount]
  contiguous h := by rw [hsize, t.shape.storageElementCount_of_contiguous h, Tensor.size]
  bounded := hbounded

theorem TensorsSeen.add {seen : List ManifestTensor} {byName : ByName} {t : ManifestTensor}
    (h : TensorsSeen seen byName) (ht : TensorSound t)
    (hnew : ¬ (byName.lookup t.name).isSome = true) :
    TensorsSeen (seen ++ [t]) (byName.insert t.name t) where
  sound t' ht' := by
    rcases List.mem_append.mp ht' with ht' | ht'
    · exact h.sound t' ht'
    · exact List.mem_singleton.mp ht' ▸ ht
  names := by
    rw [List.map_append, List.nodup_append]
    refine ⟨h.names, List.nodup_singleton _, ?_⟩
    intro name hname name' hname' heq
    obtain ⟨t', ht', rfl⟩ := List.mem_map.mp hname
    rw [List.map_singleton, List.mem_singleton] at hname'
    rw [← hname', ← heq] at hnew
    exact hnew (h.known t' ht')
  found name t' hfound := by
    rw [Table.lookup_insert'] at hfound
    split at hfound
    · next hname =>
      obtain rfl := Option.some.inj hfound
      exact ⟨List.mem_append_right _ List.mem_cons_self, hname.symm⟩
    · obtain ⟨hmem, hname⟩ := h.found name t' hfound
      exact ⟨List.mem_append_left _ hmem, hname⟩
  known t' ht' := by
    rw [Table.lookup_insert']
    split
    · rfl
    · next hne =>
      rcases List.mem_append.mp ht' with ht' | ht'
      · exact h.known t' ht'
      · exact absurd (congrArg ManifestTensor.name (List.mem_singleton.mp ht')) hne

theorem returns_validateTensors (m : ModelManifest) :
    Returns (validateTensors m) (TensorsSeen m.tensors) := by
  refine Returns.forEach (fun seen t _ byName _ h => ?_) ⟨by simp, List.nodup_nil, by simp, by simp⟩
  refine Returns.guard fun _ => Returns.then fun _ => Returns.guard fun hbounded => ?_
  refine (returns_requiredBytes t.shape t.dtype).bind fun bytes hbytes => Returns.guard fun hsize => ?_
  refine Returns.then fun _ => Returns.guard fun hnew => Returns.pure (h.add ?_ hnew)
  refine tensorSound (Watched.exact_add (UInt64.not_lt.mp hbounded)) ?_
  rw [← not_not.mp hsize]
  exact hbytes

/-! ## references -/

theorem returns_add {a b : UInt64} (h : a.toNat + b.toNat < 2 ^ 64) :
    Returns (Watched.add a b : Code UInt64) fun c => c.toNat = a.toNat + b.toNat := fun _ =>
  Watched.wp_add h fun _ hc _ ha => Except.ok.inj ha ▸ hc

theorem returns_ofDimensions (dimensions : List UInt64) :
    Returns (Shape.ofDimensions dimensions) fun s => s.dimensions = dimensions := fun _ =>
  Shape.wp_ofDimensions (fun _ hd _ _ ha => Except.ok.inj ha ▸ hd) fun _ _ ha => nomatch ha

theorem returns_layoutShape (layout : TensorLayout) (input output : UInt64) :
    Returns (layoutShape layout input output) fun s =>
      s.dimensions = layoutDimensions layout input output := by
  cases layout with
  | InputOutput => exact returns_ofDimensions _
  | OutputInput => exact returns_ofDimensions _

variable {m : ModelManifest} {byName : ByName}

theorem returns_validateProjection (h : TensorsSeen m.tensors byName) (p : ProjectionLocation)
    (down : Bool) : Returns (validateProjection m.config byName p down) fun _ =>
      ProjectionSound m p (if down then m.config.intermediateSize else m.config.hiddenSize)
        (if down then m.config.hiddenSize else m.config.intermediateSize) := by
  refine Returns.guard fun _ => (returns_orThrow _ _).bind fun source hsource => Returns.guard fun hrange => ?_
  obtain ⟨hmem, hname⟩ := h.found _ _ hsource
  rw [not_or, not_or, UInt64.not_lt, UInt64.not_lt] at hrange
  have hend := Watched.exact_add hrange.2.2
  have hsourceEnd := (h.sound source hmem).bounded
  refine (returns_add hend).bind fun projectionEnd hprojection => ?_
  refine (returns_add hsourceEnd).bind fun sourceEnd hsource' => ?_
  refine Returns.guard fun hle => Returns.then fun bytes => Returns.guard fun _ => ?_
  have hle' := UInt64.le_iff_toNat_le.mp (UInt64.not_lt.mp hle)
  have hexpected : Returns (projectionShape m.config p.layout down) fun s =>
      s.dimensions = layoutDimensions p.layout
        (if down then m.config.intermediateSize else m.config.hiddenSize)
        (if down then m.config.hiddenSize else m.config.intermediateSize) := by
    cases down <;> exact returns_layoutShape _ _ _
  refine hexpected.bind fun expected hd => (returns_throwIf (p.shape ≠ expected) _).mono fun _ hshape => ?_
  refine ⟨⟨source, hmem, hname, UInt64.le_iff_toNat_le.mp hrange.2.1, by omega⟩, ?_⟩
  rw [not_not.mp hshape]
  exact hd

theorem returns_validateBinding (h : TensorsSeen m.tensors byName) (b : ManifestTensorBinding)
    (input output : UInt64) : Returns (validateBinding byName b input output) fun _ =>
      BindingSound m b input.toNat output.toNat := by
  refine (returns_ofDimensions _).bind fun shape hshape => Returns.guard fun _ => ?_
  refine (returns_orThrow _ _).bind fun found hfound => ?_
  obtain ⟨hmem, hname⟩ := h.found _ _ hfound
  have hexpected : Returns (bindingShape b.layout shape input output) fun s =>
      s.dimensions = layoutDimensions b.layout input output := by
    cases b.layout with
    | InputOutput => exact Returns.pure hshape
    | OutputInput => exact returns_ofDimensions _
  refine hexpected.bind fun expected hd => (returns_throwIf (found.shape ≠ expected) _).mono fun _ hne => ?_
  refine ⟨found, hmem, hname, ?_⟩
  rw [not_not.mp hne, hd]
  cases b.layout <;> rfl

/-! ## routers -/

/-- the tensor of a router is a matrix of the layout -/
def RouterSound (m : ModelManifest) (r : ManifestRouterTensor) : Prop :=
  ∃ t ∈ m.tensors, t.name = r.tensorName ∧
    t.shape.dimensions = layoutDimensions m.router.layout m.config.hiddenSize m.config.expertCount

structure RoutersSeen (m : ModelManifest) (seen : List ManifestRouterTensor) (routerLayers : Finset UInt32) :
    Prop where
  sound : ∀ r ∈ seen, RouterSound m r
  distinct : (seen.map ManifestRouterTensor.layerId).Nodup
  layers : ∀ layer, layer ∈ routerLayers ↔ ∃ r ∈ seen, r.layerId = layer

/-- one more in a list of distinct keys -/
theorem nodup_concat {α κ : Type} {key : α → κ} {seen : List α} {a : α} (h : (seen.map key).Nodup)
    (hnew : ∀ b ∈ seen, key b ≠ key a) : ((seen ++ [a]).map key).Nodup := by
  rw [List.map_append, List.nodup_append]
  refine ⟨h, List.nodup_singleton _, ?_⟩
  intro k hk k' hk' heq
  obtain ⟨b, hb, rfl⟩ := List.mem_map.mp hk
  exact hnew b hb (heq.trans (List.mem_singleton.mp hk'))

/-- one more key in the set of the keys -/
theorem insert_keys {α κ : Type} [DecidableEq κ] {key : α → κ} {seen : List α} {a : α} {keys : Finset κ}
    (h : ∀ k, k ∈ keys ↔ ∃ b ∈ seen, key b = k) (k : κ) :
    k ∈ insert (key a) keys ↔ ∃ b ∈ seen ++ [a], key b = k := by
  rw [Finset.mem_insert, h]
  constructor
  · rintro (rfl | ⟨b, hb, rfl⟩)
    · exact ⟨a, by simp, rfl⟩
    · exact ⟨b, by simp [hb], rfl⟩
  · rintro ⟨b, hb, rfl⟩
    rcases List.mem_append.mp hb with hb | hb
    · exact .inr ⟨b, hb, rfl⟩
    · exact .inl (congrArg key (List.mem_singleton.mp hb))

theorem returns_validateRouters (h : TensorsSeen m.tensors byName) :
    Returns (validateRouters m byName) (RoutersSeen m m.router.tensors) := by
  refine Returns.forEach (fun seen r _ routerLayers _ hseen => ?_) ⟨by simp, List.nodup_nil, by simp⟩
  refine Returns.guard fun hnew => (returns_orThrow _ _).bind fun found hfound => ?_
  obtain ⟨hmem, hname⟩ := h.found _ _ hfound
  refine (returns_layoutShape _ _ _).bind fun expected hd => Returns.guard fun hshape => Returns.pure ?_
  rw [not_or, hseen.layers] at hnew
  refine ⟨fun r' hr' => ?_, nodup_concat hseen.distinct fun b hb hkey => hnew.2 ⟨b, hb, hkey⟩,
    insert_keys hseen.layers⟩
  rcases List.mem_append.mp hr' with hr' | hr'
  · exact hseen.sound r' hr'
  · rw [List.mem_singleton.mp hr']
    exact ⟨found, hmem, hname, by rw [not_not.mp hshape]; exact hd⟩

/-- the one element with a key -/
theorem filter_key {α κ : Type} [DecidableEq κ] {key : α → κ} {as : List α} {a : α}
    (h : (as.map key).Nodup) (ha : a ∈ as) : as.filter (fun b => key b = key a) = [a] := by
  induction as with
  | nil => exact absurd ha List.not_mem_nil
  | cons b as ih =>
    rw [List.map_cons, List.nodup_cons] at h
    rcases List.mem_cons.mp ha with rfl | ha
    · rw [List.filter_cons_of_pos (by simp), List.filter_eq_nil_iff.mpr]
      intro c hc hkey
      exact h.1 (List.mem_map.mpr ⟨c, hc, of_decide_eq_true hkey⟩)
    · have hne : key b ≠ key a := fun hkey => h.1 (hkey ▸ List.mem_map_of_mem ha)
      rw [List.filter_cons_of_neg (by simp [hne]), ih h.2 ha]

/-! ## experts -/

structure ExpertsSeen (m : ModelManifest) (seen : List ManifestExpertMapping) (tally : ExpertTally) :
    Prop where
  sound : ∀ e ∈ seen, ProjectionSound m e.gate m.config.hiddenSize m.config.intermediateSize ∧
    ProjectionSound m e.up m.config.hiddenSize m.config.intermediateSize ∧
    ProjectionSound m e.down m.config.intermediateSize m.config.hiddenSize
  bounded : ∀ e ∈ seen, e.expertId.toNat < m.config.expertCount.toNat
  distinct : (seen.map fun e => (e.layerId, e.expertId)).Nodup
  identities : ∀ p, p ∈ tally.identities ↔ ∃ e ∈ seen, (e.layerId, e.expertId) = p
  counts : ∀ layer, (tally.expertsPerLayer.lookup layer).elim 0 UInt64.toNat =
    (seen.filter fun e => e.layerId = layer).length

theorem expertsSeen_nil (m : ModelManifest) : ExpertsSeen m [] {} where
  sound := by simp
  bounded := by simp
  distinct := List.nodup_nil
  identities := by simp
  counts _ := rfl

/-- the experts of one layer differ in their ids -/
theorem distinct_of_layer {seen : List ManifestExpertMapping} (layer : UInt32)
    (h : (seen.map fun e => (e.layerId, e.expertId)).Nodup) :
    ((seen.filter fun e => e.layerId = layer).map fun e => e.expertId.toNat).Nodup := by
  rw [List.nodup_map_iff_inj_on]
  · intro e he e' he' hid
    rw [List.mem_filter, decide_eq_true_eq] at he he'
    have hpair : (e.layerId, e.expertId) = (e'.layerId, e'.expertId) := by
      rw [he.2, he'.2, UInt32.toNat_inj.mp hid]
    exact List.inj_on_of_nodup_map h he.1 he'.1 hpair
  · exact (List.Nodup.of_map _ h).filter _

theorem length_layer_le {seen : List ManifestExpertMapping} (layer : UInt32)
    (h : (seen.map fun e => (e.layerId, e.expertId)).Nodup) :
    (seen.filter fun e => e.layerId = layer).length ≤ 2 ^ 32 := by
  have hsub : ((seen.filter fun e => e.layerId = layer).map fun e => e.expertId.toNat) ⊆
      List.range (2 ^ 32) := by
    intro i hi
    obtain ⟨e, -, rfl⟩ := List.mem_map.mp hi
    exact List.mem_range.mpr (UInt32.toNat_lt _)
  have hle := ((distinct_of_layer layer h).subperm hsub).length_le
  rwa [List.length_map, List.length_range] at hle

theorem returns_addExpert (h : TensorsSeen m.tensors byName) {seen : List ManifestExpertMapping}
    {tally : ExpertTally} (hseen : ExpertsSeen m seen tally) (e : ManifestExpertMapping) (index : Nat) :
    Returns (addExpert m byName index e tally) (ExpertsSeen m (seen ++ [e])) := by
  refine Returns.guard fun hbounds => Returns.guard fun hnew => ?_
  have hcount : ((tally.expertsPerLayer.lookup e.layerId).getD 0).toNat =
      (seen.filter fun e' => e'.layerId = e.layerId).length := by
    rw [← hseen.counts e.layerId]
    cases tally.expertsPerLayer.lookup e.layerId <;> rfl
  have hle := length_layer_le e.layerId hseen.distinct
  have h1 : (1 : UInt64).toNat = 1 := rfl
  refine (returns_add (by rw [hcount, h1]; omega)).bind fun count hcount' => Returns.then fun dtype => ?_
  refine (returns_validateProjection h e.gate false).bind fun _ hgate => ?_
  refine (returns_validateProjection h e.up false).bind fun _ hup => ?_
  refine (returns_validateProjection h e.down true).bind fun _ hdown => Returns.pure ?_
  rw [not_or, UInt64.not_le, UInt64.not_le] at hbounds
  rw [hseen.identities] at hnew
  refine ⟨fun e' he' => ?_, fun e' he' => ?_, nodup_concat hseen.distinct fun b hb hkey => hnew ⟨b, hb, hkey⟩,
    insert_keys hseen.identities, fun layer => ?_⟩
  · rcases List.mem_append.mp he' with he' | he'
    · exact hseen.sound e' he'
    · rw [List.mem_singleton.mp he']
      exact ⟨hgate, hup, hdown⟩
  · rcases List.mem_append.mp he' with he' | he'
    · exact hseen.bounded e' he'
    · rw [List.mem_singleton.mp he']
      have hlt := UInt64.lt_iff_toNat_lt.mp hbounds.2
      rwa [UInt32.toNat_toUInt64] at hlt
  · rw [Table.lookup_insert', List.filter_append, List.length_append]
    split
    · next hl =>
      subst hl
      rw [List.filter_cons_of_pos (by simp)]
      show count.toNat = _ + 1
      rw [hcount', hcount, h1]
    · next hl =>
      rw [List.filter_cons_of_neg (by simpa using fun hl' => hl hl'.symm)]
      exact hseen.counts layer

/-- what the counts of the layers have been compared with -/
theorem returns_validateExperts (h : TensorsSeen m.tensors byName) {routerLayers : Finset UInt32} :
    Returns (validateExperts m byName routerLayers) fun _ => ∃ tally, ExpertsSeen m m.experts tally ∧
      ∀ layer count, tally.expertsPerLayer.lookup layer = some count →
        count = m.config.expertCount ∧ layer ∈ routerLayers := by
  have hexperts : Returns (forEach (addExpert m byName) 0 {} m.experts) (ExpertsSeen m m.experts) :=
    Returns.forEach (I := ExpertsSeen m) (fun seen e _ tally _ hseen => returns_addExpert h hseen e seen.length)
      (expertsSeen_nil m)
  refine hexperts.bind fun tally htally => ?_
  have hcounts : Returns (forEach (checkLayerCount m routerLayers) 0 () tally.expertsPerLayer.entries)
      fun _ => ∀ entry ∈ tally.expertsPerLayer.entries,
        entry.2 = m.config.expertCount ∧ entry.1 ∈ routerLayers := by
    refine Returns.forEach (I := fun (seen : List (Sigma fun _ : UInt32 => UInt64)) _ => ∀ entry ∈ seen,
      entry.2 = m.config.expertCount ∧ entry.1 ∈ routerLayers) (fun seen entry _ _ _ hseen => ?_) (by simp)
    refine Returns.guard fun hcount => (returns_throwIf (entry.1 ∉ routerLayers) _).mono fun _ hrouter => ?_
    intro entry' hentry'
    rcases List.mem_append.mp hentry' with hentry' | hentry'
    · exact hseen entry' hentry'
    · rw [List.mem_singleton.mp hentry']
      exact ⟨not_not.mp hcount, not_not.mp hrouter⟩
  refine hcounts.bind fun _ hcounts => Returns.guard fun _ => ?_
  refine (returns_throwIf (m.config.capabilities.quantizedExpertWeights ≠ tally.hasQuantizedExperts) _).mono
    fun _ _ => ⟨tally, htally, fun layer count hlookup => ?_⟩
  exact hcounts ⟨layer, count⟩ (Table.mem_entries_iff.mpr hlookup)

/-! ## layers -/

structure LayersSeen (m : ModelManifest) (runtime : Runtime.ModelArchitecture)
    (seen : List ManifestLayerMapping) (mappedLayers : Finset UInt32) : Prop where
  sound : ∀ layer ∈ seen, LayerSound m runtime layer
  bounded : ∀ layer ∈ seen, layer.layerId.toNat < runtime.layerCount.toNat
  distinct : (seen.map ManifestLayerMapping.layerId).Nodup
  layers : ∀ id, id ∈ mappedLayers ↔ ∃ layer ∈ seen, layer.layerId = id

theorem toNat_mul_of_lt {a b : UInt64} (h : a.toNat * b.toNat < 2 ^ 64) :
    (a * b).toNat = a.toNat * b.toNat := by
  rw [UInt64.toNat_mul, Nat.mod_eq_of_lt h]

theorem returns_validateLayer (h : TensorsSeen m.tensors byName) {runtime : Runtime.ModelArchitecture}
    {seen : List ManifestLayerMapping} {mappedLayers : Finset UInt32}
    (hseen : LayersSeen m runtime seen mappedLayers) (layer : ManifestLayerMapping) (index : Nat) :
    Returns (validateLayer m byName runtime (runtime.attentionHeads * runtime.projectionHeadDimension)
      (runtime.keyValueHeads * runtime.projectionHeadDimension) index layer mappedLayers)
      (LayersSeen m runtime (seen ++ [layer])) := by
  refine Returns.guard fun hnew => ?_
  refine (returns_validateBinding h layer.queryProjection _ _).bind fun _ hquery => ?_
  refine (returns_validateBinding h layer.keyProjection _ _).bind fun _ hkey => ?_
  refine (returns_validateBinding h layer.valueProjection _ _).bind fun _ hvalue => ?_
  refine (returns_validateBinding h layer.outputProjection _ _).bind fun _ houtput => ?_
  refine Returns.guard fun _ => Returns.then fun _ => Returns.then fun _ => Returns.guard fun _ => Returns.pure ?_
  rw [not_or, UInt64.not_le, hseen.layers] at hnew
  refine ⟨fun l hl => ?_, fun l hl => ?_, nodup_concat hseen.distinct fun b hb hkey => hnew.2 ⟨b, hb, hkey⟩,
    insert_keys hseen.layers⟩
  · rcases List.mem_append.mp hl with hl | hl
    · exact hseen.sound l hl
    · rw [List.mem_singleton.mp hl]
      refine ⟨fun hw => ?_, fun hw => ?_⟩
      · rw [toNat_mul_of_lt hw] at hquery houtput
        exact ⟨hquery, houtput⟩
      · rw [toNat_mul_of_lt hw] at hkey hvalue
        exact ⟨hkey, hvalue⟩
  · rcases List.mem_append.mp hl with hl | hl
    · exact hseen.bounded l hl
    · rw [List.mem_singleton.mp hl]
      have hlt := UInt64.lt_iff_toNat_lt.mp hnew.1
      rwa [UInt32.toNat_toUInt64] at hlt

theorem returns_validateLayers (h : TensorsSeen m.tensors byName) :
    Returns (validateLayers m byName) fun _ => m.layers ≠ [] → ∃ runtime,
      m.runtimeArchitecture = some runtime ∧ m.layers.length = runtime.layerCount.toNat ∧
        ∃ mappedLayers, LayersSeen m runtime m.layers mappedLayers := by
  unfold validateLayers
  split
  · next hnil => exact Returns.pure fun hne => absurd hnil hne
  · refine (returns_orThrow _ _).bind fun runtime hruntime => Returns.guard fun hlength => ?_
    have hmul : ∀ a b : UInt64, Returns (Watched.mul a b : Code UInt64) fun c => c = a * b :=
      fun a b _ c hc => (Except.ok.inj hc).symm
    refine (hmul _ _).bind fun queryWidth hquery => (hmul _ _).bind fun keyValueWidth hkeyValue => ?_
    subst hquery hkeyValue
    have hlayers : Returns (forEach (validateLayer m byName runtime
        (runtime.attentionHeads * runtime.projectionHeadDimension)
        (runtime.keyValueHeads * runtime.projectionHeadDimension)) 0 ∅ m.layers)
        (LayersSeen m runtime m.layers) :=
      Returns.forEach (I := LayersSeen m runtime)
        (fun seen layer _ mapped _ hseen => returns_validateLayer h hseen layer seen.length)
        ⟨by simp, by simp, List.nodup_nil, by simp⟩
    exact hlayers.bind fun mapped hmapped => Returns.pure fun _ =>
      ⟨runtime, hruntime, not_not.mp hlength, mapped, hmapped⟩

/-! ## the manifest -/

theorem returns_validateRuntime (m : ModelManifest) (runtime : Runtime.ModelArchitecture) :
    Returns (validateRuntime m runtime) fun _ => runtime.layerCount = m.config.layerCount := by
  refine Returns.then fun _ => (returns_throwIf (runtime.layerCount ≠ m.config.layerCount ∨ _) _).mono
    fun _ h => ?_
  rw [not_or, not_not] at h
  exact h.1

theorem complete_of_seen {routerLayers : Finset UInt32} {tally : ExpertTally}
    (hrouters : RoutersSeen m m.router.tensors routerLayers) (hexperts : ExpertsSeen m m.experts tally)
    (hcounts : ∀ layer count, tally.expertsPerLayer.lookup layer = some count →
      count = m.config.expertCount ∧ layer ∈ routerLayers) (layer : UInt32)
    (hne : m.expertsOf layer ≠ []) :
    ((m.expertsOf layer).map fun e => e.expertId.toNat).Perm (List.range m.config.expertCount.toNat) ∧
    ∃ r, m.router.tensors.filter (fun r => r.layerId = layer) = [r] ∧ RouterSound m r := by
  have hcount := hexperts.counts layer
  cases hlookup : tally.expertsPerLayer.lookup layer with
  | none =>
    rw [hlookup] at hcount
    exact absurd (List.length_eq_zero_iff.mp hcount.symm) hne
  | some count =>
    obtain ⟨rfl, hrouter⟩ := hcounts layer count hlookup
    rw [hlookup] at hcount
    refine ⟨distinct_covers (distinct_of_layer layer hexperts.distinct) (fun i hi => ?_) ?_, ?_⟩
    · obtain ⟨e, he, rfl⟩ := List.mem_map.mp hi
      exact hexperts.bounded e (List.mem_filter.mp he).1
    · rw [List.length_map]
      exact hcount.symm
    · obtain ⟨r, hr, rfl⟩ := (hrouters.layers layer).mp hrouter
      exact ⟨r, filter_key hrouters.distinct hr, hrouters.sound r hr⟩

theorem returns_validate (m : ModelManifest) : Returns m.validate fun _ => Sound m := by
  refine Returns.guard fun _ => Returns.guard fun _ => Returns.guard fun _ => Returns.then fun _ =>
    Returns.guard fun _ => Returns.guard fun _ => ?_
  have hruntime : Returns (m.runtimeArchitecture.elim (pure ()) (validateRuntime m)) fun _ =>
      ∀ runtime, m.runtimeArchitecture = some runtime → runtime.layerCount = m.config.layerCount := by
    cases m.runtimeArchitecture with
    | none => exact Returns.pure fun runtime h => nomatch h
    | some runtime =>
      refine (returns_validateRuntime m runtime).mono fun _ h runtime' h' => ?_
      obtain rfl := Option.some.inj h'
      exact h
  refine hruntime.bind fun _ hruntime => Returns.guard fun _ => ?_
  refine (returns_validateTensors m).bind fun byName htensors => ?_
  refine (returns_validateRouters htensors).bind fun routerLayers hrouters => ?_
  refine (returns_validateExperts htensors).bind fun _ hexperts => ?_
  refine (returns_validateLayers htensors).bind fun _ hlayers => ?_
  obtain ⟨tally, htally, hcounts⟩ := hexperts
  have hsound : Sound m :=
    { tensors := htensors.sound
      names := htensors.names
      projections := htally.sound
      complete := complete_of_seen hrouters htally hcounts
      layers := fun hne => by
        obtain ⟨runtime, hsome, hlength, mapped, hmapped⟩ := hlayers hne
        refine ⟨runtime, hsome, ?_, hmapped.sound⟩
        rw [← hruntime runtime hsome]
        refine distinct_covers ?_ (fun i hi => ?_) (by rw [List.length_map]; exact hlength)
        · have hinj := hmapped.distinct.map (f := UInt32.toNat) fun _ _ => UInt32.toNat_inj.mp
          rwa [List.map_map] at hinj
        · obtain ⟨layer, hlayer, rfl⟩ := List.mem_map.mp hi
          exact hmapped.bounded layer hlayer }
  exact fun _ => wp_mono (Q := fun _ _ => True) trivial fun _ _ _ _ _ => hsound

/-- a layer has one router -/
theorem returns_validate_routers (m : ModelManifest) :
    Returns m.validate fun _ => (m.router.tensors.map ManifestRouterTensor.layerId).Nodup := by
  refine Returns.guard fun _ => Returns.guard fun _ => Returns.guard fun _ => Returns.then fun _ => ?_
  refine Returns.guard fun _ => Returns.guard fun _ => Returns.then fun _ => Returns.guard fun _ => ?_
  refine (returns_validateTensors m).bind fun byName htensors => ?_
  refine (returns_validateRouters htensors).bind fun routerLayers hrouters => ?_
  refine Returns.then fun _ => Returns.then fun _ => ?_
  exact fun _ => wp_mono (Q := fun _ _ => True) trivial fun _ _ _ _ _ => hrouters.distinct

/-- An accepted manifest is sound. -/
theorem validate_sound (m : ModelManifest) (h : m.Accepted) : Sound m :=
  returns_validate m true () h

/-- one layer of one expert; the tensor `s` has gaps between its rows, and the width of the query
projection is 2 * (2^63 + 4), which is 8 as a word -/
def gappedManifest : ModelManifest where
  modelName := ascii "m"
  sourceArchitecture := ascii "a"
  config := { modelName := ascii "m", layerCount := 1, expertCount := 1, hiddenSize := 1, intermediateSize := 1 }
  runtimeArchitecture := some
    { layerCount := 1, hiddenDimension := 1, attentionHeads := 2, keyValueHeads := 2, headDimension := 2
      projectionHeadDimension := 0x8000000000000004, expertCount := 1, topK := 1 }
  router := { config := { expertCount := 1 }, tensors := [{ layerId := 0, tensorName := ascii "e" }] }
  tensors :=
    [{ name := ascii "e", sourceFile := ascii "f", size := 4, shape := ⟨⟨[1, 1], [1, 1], 1, 1⟩, .inl rfl⟩ },
     { name := ascii "n", sourceFile := ascii "f", size := 4, shape := ⟨⟨[1], [1], 1, 1⟩, .inl rfl⟩ },
     { name := ascii "q", sourceFile := ascii "f", size := 32, shape := ⟨⟨[1, 8], [8, 1], 8, 8⟩, .inl rfl⟩ },
     { name := ascii "s", sourceFile := ascii "f", size := 24, shape := ⟨⟨[2, 2], [4, 1], 4, 6⟩, .inr rfl⟩ }]
  experts :=
    [{ gate := { tensorName := ascii "e", size := 4, shape := ⟨⟨[1, 1], [1, 1], 1, 1⟩, .inl rfl⟩ }
       up := { tensorName := ascii "e", size := 4, shape := ⟨⟨[1, 1], [1, 1], 1, 1⟩, .inl rfl⟩ }
       down := { tensorName := ascii "e", size := 4, shape := ⟨⟨[1, 1], [1, 1], 1, 1⟩, .inl rfl⟩ } }]
  layers :=
    [{ queryProjection := { tensorName := ascii "q", layout := .InputOutput }
       keyProjection := { tensorName := ascii "q", layout := .InputOutput }
       valueProjection := { tensorName := ascii "q", layout := .InputOutput }
       outputProjection := { tensorName := ascii "q", layout := .OutputInput }
       inputNormTensor := ascii "n", postAttentionNormTensor := ascii "n", routerTensor := ascii "e" }]

theorem gappedManifest_accepted : gappedManifest.Accepted := by decide +kernel

/-- neither the product of the dimensions nor the exact width -/
theorem gappedManifest_inexact : gappedManifest.Accepted ∧
    (∃ t ∈ gappedManifest.tensors,
      t.size.toNat ≠ (t.shape.dimensions.map UInt64.toNat).prod * t.dtype.sizeOf.toNat) ∧
    ∃ runtime, gappedManifest.runtimeArchitecture = some runtime ∧
      ∃ layer ∈ gappedManifest.layers,
        ¬ BindingSound gappedManifest layer.queryProjection runtime.hiddenDimension.toNat
          (runtime.attentionHeads.toNat * runtime.projectionHeadDimension.toNat) := by
  refine ⟨gappedManifest_accepted, by decide +kernel, _, rfl, _, List.mem_cons_self, ?_⟩
  unfold BindingSound
  decide +kernel

/-- the same with exact widths, 8 each -/
def exactManifest : ModelManifest :=
  { gappedManifest with
    runtimeArchitecture := some
      { layerCount := 1, hiddenDimension := 1, attentionHeads := 2, keyValueHeads := 2, headDimension := 2
        projectionHeadDimension := 4, expertCount := 1, topK := 1 } }

theorem exactManifest_sound : Sound exactManifest ∧
    ∃ runtime, exactManifest.runtimeArchitecture = some runtime ∧
      runtime.attentionHeads.toNat * runtime.projectionHeadDimension.toNat < 2 ^ 64 ∧
      runtime.keyValueHeads.toNat * runtime.projectionHeadDimension.toNat < 2 ^ 64 :=
  ⟨validate_sound exactManifest (by decide +kernel), _, rfl, by decide, by decide⟩

end HyperMoE.Models
