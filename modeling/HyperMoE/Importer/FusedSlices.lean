import HyperMoE.Importer.Shadowing
import HyperMoE.Lib.Tiling
import HyperMoE.Tensor.Addressing

/-!
# Slices of fused tensors

A fused tensor has the projections of all the experts of a layer, one after the other; the importer
cuts it into slices.

* `Held`               the fused tensors of the tables are tensors of the checkpoint;
* `Slice`, `Cut`       a slice as the code computes it, and the three slices of an expert;
* `FusedLayer`         what the code has checked about the two tensors of a layer;
* `Imported`           an accepted checkpoint, with its tables;
* `Tiled`              the slices tile their tensors, element by element;
* `fused_slices_tile`  they do, in every layer of every accepted checkpoint.
-/

namespace HyperMoE.Importer.Qwen

open Lib Lib.Fallible Metadata Models Tensor

/-! ## the tables -/

section
variable {c : Checkpoint} {config : ModelConfig} {tensor : ManifestTensor} {t t' : Tables}
  {p : ParsedTensorName}

/-- the fused tensors are among the tensors seen, under names that are known to be relevant -/
structure Held (seen : List ManifestTensor) (t : Tables) : Prop where
  fused : ∀ r layer x, (t.fused r).lookup layer = some x →
    x ∈ seen ∧ x.name ∈ t.relevantNames ∧ reads x (layer, .fused r) = true

/-- a turn of the loop adds no other fused tensor than its own -/
structure Keeps (tensor : ManifestTensor) (t t' : Tables) : Prop where
  names : ∀ name ∈ t.relevantNames, name ∈ t'.relevantNames
  fused : ∀ r layer x, (t'.fused r).lookup layer = some x →
    (t.fused r).lookup layer = some x ∨
      x = tensor ∧ tensor.name ∈ t'.relevantNames ∧ reads tensor (layer, .fused r) = true

theorem keeps_of_same (hnames : t'.relevantNames = t.relevantNames)
    (hgateUp : t'.fusedGateUp = t.fusedGateUp) (hdown : t'.fusedDown = t.fusedDown) :
    Keeps tensor t t' where
  names name h := hnames ▸ h
  fused r layer x h := by
    cases r with
    | gateUp => exact .inl ((show t'.fused .gateUp = t.fused .gateUp from hgateUp) ▸ h)
    | down => exact .inl ((show t'.fused .down = t.fused .down from hdown) ▸ h)

theorem fused_of_insert {table : Table UInt32 ManifestTensor} {l layer : UInt32} {x : ManifestTensor}
    (h : (table.insert l tensor).lookup layer = some x) :
    table.lookup layer = some x ∨ x = tensor ∧ layer = l := by
  rw [Table.lookup_insert'] at h
  split at h
  · next hlayer => exact .inr ⟨(Option.some.inj h).symm, hlayer⟩
  · exact .inl h

theorem returns_addParsed_keeps (h : parseName tensor.name = .ok (some p))
    (hname : tensor.name ∈ t.relevantNames) :
    Returns (addParsed c config p tensor t) (Keeps tensor t) := by
  have hreads : ∀ r, p.role = .fused r → reads tensor (p.layer, .fused r) = true := fun r hr => by
    rw [reads_of_parse h, hr]
    exact decide_eq_true rfl
  unfold addParsed
  unfold ParsedTensorName.role at hreads
  cases hkind : p.kind with
  | Router => exact Returns.then fun _ => Returns.guard fun _ => Returns.pure (keeps_of_same rfl rfl rfl)
  | Attention => exact Returns.pure (keeps_of_same rfl rfl rfl)
  | AttentionNorm =>
    refine Returns.then fun _ => Returns.then fun _ => Returns.guard fun _ => ?_
    split <;> exact Returns.guard fun _ => Returns.pure (keeps_of_same rfl rfl rfl)
  | InputNorm => exact Returns.pure (keeps_of_same rfl rfl rfl)
  | PostAttentionNorm => exact Returns.pure (keeps_of_same rfl rfl rfl)
  | Individual =>
    refine Returns.guard fun _ => Returns.then fun _ => Returns.then fun _ => Returns.then fun _ => ?_
    split
    · exact Returns.guard fun _ => Returns.pure (keeps_of_same rfl rfl rfl)
    · split <;> exact Returns.guard fun _ => Returns.pure (keeps_of_same rfl rfl rfl)
  | FusedGateUp =>
    refine (returns_emplaceFused tensor _).bind fun table htable => Returns.pure ⟨fun _ => id, ?_⟩
    intro r layer x h
    cases r with
    | gateUp =>
      refine (fused_of_insert (htable.2 ▸ h)).imp id fun hfused => ⟨hfused.1, hname, ?_⟩
      rw [hfused.2]
      exact hreads _ (by rw [hkind])
    | down => exact .inl h
  | FusedDown =>
    refine (returns_emplaceFused tensor _).bind fun table htable => Returns.pure ⟨fun _ => id, ?_⟩
    intro r layer x h
    cases r with
    | gateUp => exact .inl h
    | down =>
      refine (fused_of_insert (htable.2 ▸ h)).imp id fun hfused => ⟨hfused.1, hname, ?_⟩
      rw [hfused.2]
      exact hreads _ (by rw [hkind])

theorem Keeps.of_relevant (h : Keeps tensor (t.relevant tensor.name) t') : Keeps tensor t t' where
  names name hname := h.names name (List.mem_cons_of_mem _ hname)
  fused r layer x hx := (h.fused r layer x hx).imp (fun hx => by cases r <;> exact hx) id

theorem returns_addTensor_keeps (i : Nat) :
    Returns (addTensor c config i tensor t) (Keeps tensor t) := by
  have hfixed : ∀ a b d : Option ManifestTensor, Keeps tensor t
      { t.relevant tensor.name with tokenEmbedding := a, finalNorm := b, lmHead := d } := fun a b d =>
    Keeps.of_relevant (keeps_of_same rfl rfl rfl)
  unfold addTensor
  split
  · exact Returns.pure (hfixed _ _ _)
  split
  · exact Returns.pure (hfixed _ _ _)
  split
  · exact Returns.pure (hfixed _ _ _)
  have hsettle : Returns (settle (parseName tensor.name) : Code _)
      fun parsed => parseName tensor.name = .ok parsed := fun _ _ h => h
  refine hsettle.bind fun parsed hparsed => ?_
  cases parsed with
  | none => exact Returns.pure (keeps_of_same rfl rfl rfl)
  | some p =>
    refine Returns.guard fun _ => ?_
    exact (returns_addParsed_keeps hparsed (List.mem_cons_self ..)).mono fun _ h => h.of_relevant

theorem Held.add {seen : List ManifestTensor} (h : Held seen t) (hk : Keeps tensor t t') :
    Held (seen ++ [tensor]) t' where
  fused r layer x hx := by
    rcases hk.fused r layer x hx with hx | ⟨rfl, hname, hreads⟩
    · obtain ⟨hmem, hname, hreads⟩ := h.fused r layer x hx
      exact ⟨List.mem_append_left _ hmem, hk.names _ hname, hreads⟩
    · exact ⟨List.mem_append_right _ List.mem_cons_self, hname, hreads⟩

theorem returns_held (c : Checkpoint) (config : ModelConfig) :
    Returns (forEach (addTensor c config) 0 {} c.tensors) (Held c.tensors) := by
  refine Returns.forEach (fun seen tensor _ t _ h => ?_) ⟨fun r layer x h => by cases r <;> exact nomatch h⟩
  exact (returns_addTensor_keeps seen.length).mono fun _ hk => h.add hk

end

/-! ## what the code computes -/

/-- the matrix in the bytes from `relative` on -/
structure Slice (tensor : ManifestTensor) (relative bytes rows columns : UInt64)
    (p : ProjectionLocation) : Prop where
  tensorName : p.tensorName = tensor.name
  offset : p.offset = tensor.offset + relative
  size : p.size = bytes
  dimensions : p.shape.dimensions = [rows, columns]
  contiguous : p.shape.isContiguous = true

/-- the slices of an expert -/
structure Cut (config : ModelConfig) (gateUp down : ManifestTensor) (projectionBytes downBytes : UInt64)
    (expert : Nat) (x : ManifestExpertMapping) : Prop where
  expertId : x.expertId = UInt32.ofNat expert
  gate : Slice gateUp (UInt64.ofNat expert * 2 * projectionBytes) projectionBytes
    config.intermediateSize config.hiddenSize x.gate
  up : Slice gateUp (UInt64.ofNat expert * 2 * projectionBytes + projectionBytes) projectionBytes
    config.intermediateSize config.hiddenSize x.up
  down : Slice down (UInt64.ofNat expert * downBytes) downBytes config.hiddenSize
    config.intermediateSize x.down

/-- the tensors of a fused layer, and the bytes of a slice -/
structure FusedLayer (config : ModelConfig) (gateUp down : ManifestTensor)
    (projectionBytes downBytes : UInt64) : Prop where
  gateUpShape : gateUp.shape.dimensions =
    [config.expertCount, 2 * config.intermediateSize, config.hiddenSize]
  gateUpContiguous : gateUp.shape.isContiguous = true
  downShape : down.shape.dimensions = [config.expertCount, config.hiddenSize, config.intermediateSize]
  downContiguous : down.shape.isContiguous = true
  dtype : down.dtype = gateUp.dtype
  projectionBytes : projectionBytes.toNat =
    config.intermediateSize.toNat * config.hiddenSize.toNat * gateUp.dtype.sizeOf.toNat
  downBytes : downBytes.toNat =
    config.intermediateSize.toNat * config.hiddenSize.toNat * gateUp.dtype.sizeOf.toNat

/-- an expert that was cut from the fused tensors that the tables have for its layer -/
def FromSlices (config : ModelConfig) (t : Tables) (x : ManifestExpertMapping) : Prop :=
  ∃ gateUp down projectionBytes downBytes expert,
    t.fusedGateUp.lookup x.layerId = some gateUp ∧ t.fusedDown.lookup x.layerId = some down ∧
    FusedLayer config gateUp down projectionBytes downBytes ∧ expert < config.expertCount.toNat ∧
    Cut config gateUp down projectionBytes downBytes expert x

variable {config : ModelConfig} {t : Tables}

theorem size_pair (a b : UInt64) : size [a, b] = a.toNat * b.toNat := by
  rw [size_cons, size_cons]
  exact congrArg (a.toNat * ·) (Nat.mul_one _)

theorem returns_shapeOf (dimensions : List UInt64) : Returns (shapeOf dimensions) fun s =>
    s.dimensions = dimensions ∧ s.isContiguous = true :=
  (Shape.returns_ofDimensions dimensions).mapError

theorem returns_count (dimensions : List UInt64) (elements : UInt64) :
    Returns (bytesFor.count elements dimensions) fun n =>
      n.toNat = elements.toNat * size dimensions := by
  induction dimensions generalizing elements with
  | nil => exact Returns.pure (Nat.mul_one _).symm
  | cons d dimensions ih =>
    refine Returns.guard fun hguard => (ih (elements * d)).mono fun n hn => ?_
    have hne : d ≠ 0 := fun h => hguard (.inl h)
    have hlt := Watched.exact_mul (UInt64.not_lt.mp fun h => hguard (.inr h)) hne
    rw [hn, UInt64.toNat_mul, Nat.mod_eq_of_lt hlt, size_cons, Nat.mul_assoc]

theorem returns_bytesFor (dimensions : List UInt64) (dtype : DType) :
    Returns (bytesFor dimensions dtype) fun bytes =>
      bytes.toNat = size dimensions * dtype.sizeOf.toNat := by
  refine (returns_count dimensions 1).bind fun elements helements => Returns.guard fun hle => ?_
  have hlt := Watched.exact_mul (UInt64.not_lt.mp hle) dtype.sizeOf_ne_zero
  have h1 : (1 : UInt64).toNat = 1 := rfl
  refine Returns.pure ?_
  rw [UInt64.toNat_mul, Nat.mod_eq_of_lt hlt, helements, h1, Nat.one_mul]

theorem returns_slice {shape : Shape} {rows columns : UInt64} (tensor : ManifestTensor)
    (relative bytes : UInt64)
    (hshape : shape.dimensions = [rows, columns] ∧ shape.isContiguous = true) :
    Returns (sliceProjection tensor relative bytes shape) (Slice tensor relative bytes rows columns) :=
  Returns.guard fun _ => Returns.pure ⟨rfl, rfl, rfl, hshape.1, hshape.2⟩

theorem returns_addFusedExpert {layer : UInt32} {gateUp down : ManifestTensor}
    {projectionBytes downBytes : UInt64} (i expert : Nat) (experts : List ManifestExpertMapping) :
    Returns (addFusedExpert config layer gateUp down projectionBytes downBytes i expert experts)
      fun experts' => ∃ x, experts' = experts ++ [x] ∧ x.layerId = layer ∧
        Cut config gateUp down projectionBytes downBytes expert x := by
  refine (returns_shapeOf _).bind fun gateShape hgateShape => ?_
  refine (returns_slice _ _ _ hgateShape).bind fun gate hgate => ?_
  refine (returns_shapeOf _).bind fun upShape hupShape => ?_
  refine (returns_slice _ _ _ hupShape).bind fun up hup => ?_
  refine (returns_shapeOf _).bind fun downShape hdownShape => ?_
  refine (returns_slice _ _ _ hdownShape).bind fun down' hdown => ?_
  exact Returns.pure ⟨_, rfl, rfl, rfl, hgate, hup, hdown⟩

theorem returns_addFusedLayer_slices (before : List ManifestExpertMapping) (i : Nat)
    (entry : UInt32 × ManifestTensor) (hentry : t.fusedGateUp.lookup entry.1 = some entry.2) :
    Returns (addFusedLayer config t i entry before) fun experts =>
      ∀ x ∈ experts, x ∈ before ∨ FromSlices config t x := by
  refine (returns_orThrow _ _).bind fun down hdown => Returns.guard fun _ => ?_
  refine (returns_shapeOf _).bind fun expectedGateUp hgateUp => ?_
  refine (returns_shapeOf _).bind fun expectedDown hdownShape => Returns.guard fun hmetadata => ?_
  refine (returns_bytesFor _ _).bind fun projectionBytes hprojection => ?_
  refine (returns_bytesFor _ _).bind fun downBytes hdownBytes => ?_
  push Not at hmetadata
  obtain ⟨hsame, hsameDown, hdtype⟩ := hmetadata
  have hlayer : FusedLayer config entry.2 down projectionBytes downBytes :=
    { gateUpShape := hsame ▸ hgateUp.1
      gateUpContiguous := hsame ▸ hgateUp.2
      downShape := hsameDown ▸ hdownShape.1
      downContiguous := hsameDown ▸ hdownShape.2
      dtype := hdtype.symm
      projectionBytes := by rw [hprojection, size_pair]
      downBytes := by rw [hdownBytes, size_pair, Nat.mul_comm config.hiddenSize.toNat] }
  have hloop := Returns.forEach (f := addFusedExpert config entry.1 entry.2 down projectionBytes downBytes)
    (l := List.range config.expertCount.toNat) (b := before)
    (I := fun seen experts => ∀ x ∈ experts, x ∈ before ∨ ∃ expert ∈ seen, x.layerId = entry.1 ∧
      Cut config entry.2 down projectionBytes downBytes expert x) ?_ fun x hx => .inl hx
  · refine hloop.mono fun experts h x hx => (h x hx).imp id ?_
    rintro ⟨expert, hexpert, hid, hcut⟩
    exact ⟨entry.2, down, projectionBytes, downBytes, expert, hid ▸ hentry, hid ▸ hdown, hlayer,
      List.mem_range.mp hexpert, hcut⟩
  · intro seen expert todo experts _ h
    refine (returns_addFusedExpert _ expert experts).mono fun experts' hadded x hx => ?_
    obtain ⟨y, rfl, hid, hcut⟩ := hadded
    rcases List.mem_append.mp hx with hx | hx
    · refine (h x hx).imp id fun ⟨e, he, hrest⟩ => ⟨e, List.mem_append_left _ he, hrest⟩
    · obtain rfl := List.mem_singleton.mp hx
      exact .inr ⟨expert, List.mem_append_right _ List.mem_cons_self, hid, hcut⟩

theorem returns_collectExperts_slices (config : ModelConfig) (t : Tables) :
    Returns (collectExperts config t) fun experts =>
      ∀ x ∈ experts, (∃ k, t.individual.lookup k = some x) ∨ FromSlices config t x := by
  refine (returns_individual t).bind fun individual hindividual => ?_
  have hloop := Returns.forEach (f := addFusedLayer config t) (l := ordered UInt32.toNat t.fusedGateUp)
    (b := individual) (I := fun _ experts => ∀ x ∈ experts, x ∈ individual ∨ FromSlices config t x)
    ?_ fun x hx => .inl hx
  · refine hloop.bind fun experts h => Returns.then fun _ => Returns.guard fun _ => Returns.then fun _ => ?_
    exact Returns.pure fun x hx => (h x hx).imp (hindividual x).mp id
  · intro seen entry todo experts hsplit h
    have hentry : t.fusedGateUp.lookup entry.1 = some entry.2 :=
      mem_ordered.mp (by rw [hsplit]; exact List.mem_append_right _ List.mem_cons_self)
    refine (returns_addFusedLayer_slices experts seen.length entry hentry).mono fun experts' h' x hx => ?_
    exact (h' x hx).elim (h x) .inr

/-! ## an accepted checkpoint -/

/-- what the code has checked about the sizes of a model -/
structure Limits (config : ModelConfig) : Prop where
  experts : 0 < config.expertCount.toNat
  expertIds : config.expertCount.toNat < 2 ^ 32
  doubled : 2 * config.intermediateSize.toNat < 2 ^ 64

structure Imported (c : Checkpoint) (m : ModelManifest) (t : Tables) : Prop where
  inspected : Inspected c m t
  held : Held c.tensors t
  tensors : m.tensors = c.tensors.filter fun tensor => tensor.name ∈ t.relevantNames
  slices : ∀ x ∈ m.experts, (∃ k, t.individual.lookup k = some x) ∨ FromSlices m.config t x
  limits : Limits m.config
  sound : Sound m

theorem returns_requiredSize (root : JsonValue) (field : String) :
    Returns (requiredSize root field) fun value => value ≠ 0 :=
  Returns.then fun _ => Returns.guard fun hne => Returns.pure hne

theorem returns_readConfig (asFloat : JsonValue → Except MetadataError Binary32) (c : Checkpoint) :
    Returns (readConfig asFloat c) fun read => Limits read.1.config := by
  refine Returns.then fun _ => Returns.then fun layerCount => ?_
  refine (returns_requiredSize _ _).bind fun expertCount hexperts => Returns.then fun hiddenSize => ?_
  refine Returns.then fun intermediateSize => Returns.guard fun hlimit => ?_
  refine Returns.then fun _ => Returns.then fun _ => Returns.then fun _ => Returns.then fun _ => ?_
  refine Returns.then fun runtime => Returns.pure ?_
  have hcount := UInt64.not_lt.mp fun h => hlimit (.inr (.inl h))
  have hle := UInt64.not_lt.mp fun h => hlimit (.inr (.inr h))
  rw [UInt64.le_iff_toNat_le, UInt64.toNat_div, Watched.toNat_maxWord] at hle
  have h2 : (2 : UInt64).toNat = 2 := rfl
  have hmax : (0xffffffff : UInt64).toNat = 2 ^ 32 - 1 := rfl
  rw [h2] at hle
  rw [UInt64.le_iff_toNat_le, hmax] at hcount
  refine ⟨Nat.pos_of_ne_zero fun h0 => hexperts (UInt64.toNat_inj.mp h0), ?_, ?_⟩
  · show expertCount.toNat < 2 ^ 32
    omega
  · show 2 * intermediateSize.toNat < 2 ^ 64
    omega

theorem returns_imported (asFloat : JsonValue → Except MetadataError Binary32) (c : Checkpoint) :
    Returns (inspect asFloat c) fun m => ∃ t, Imported c m t := by
  refine (returns_readConfig asFloat c).bind fun read hlimits => Returns.then fun parameterCount => ?_
  refine ((returns_loop c _).and (returns_held c _)).bind fun t ht => ?_
  refine ((returns_collectExperts _ t).and (returns_collectExperts_slices _ t)).bind fun experts he => ?_
  refine (returns_collectLayers _ t).bind fun layers hlayers => Returns.then fun modelIO => ?_
  refine ((returns_validate _).and (returns_validate_routers _)).mapError.bind fun _ hvalid => ?_
  have hperm : ∀ {experts : List ManifestExpertMapping}, (sortExperts experts).Perm experts :=
    List.perm_insertionSort ..
  exact Returns.pure ⟨t,
    { inspected :=
        { loop := ht.1
          experts := ⟨experts, hperm, he.1⟩
          layers := hlayers
          routers := List.perm_insertionSort ..
          distinct := hvalid.2 }
      held := ht.2
      tensors := rfl
      slices := fun x hx => he.2 x (hperm.mem_iff.mp hx)
      limits := ⟨hlimits.experts, hlimits.expertIds, hlimits.doubled⟩
      sound := hvalid.1 }⟩

/-! ## the tensors of a layer -/

section
variable {c : Checkpoint} {m : ModelManifest} {layer : UInt32} {r : FusedRole} {tensor x y : ManifestTensor}

/-- two tensors of one relevant name are one tensor -/
theorem Imported.eq_of_name (h : Imported c m t) (hx : x ∈ c.tensors) (hy : y ∈ c.tensors)
    (hrelevant : x.name ∈ t.relevantNames) (hname : y.name = x.name) : y = x := by
  have hmem : ∀ z ∈ c.tensors, z.name = x.name → z ∈ m.tensors := fun z hz hzname => by
    rw [h.tensors, List.mem_filter, decide_eq_true_eq, hzname]
    exact ⟨hz, hrelevant⟩
  exact List.inj_on_of_nodup_map h.sound.names (hmem y hy hname) (hmem x hx rfl) hname

theorem Imported.lookup_of_reads (h : Imported c m t) (hmem : tensor ∈ c.tensors)
    (hreads : reads tensor (layer, .fused r) = true) : (t.fused r).lookup layer = some tensor := by
  have hslot : ((t.fused r).lookup layer).elim [] ManifestTensor.name = tensor.name :=
    h.inspected.slot_eq (h.inspected.loop.single _ (by cases r <;> rfl)) hmem hreads
  cases hlookup : (t.fused r).lookup layer with
  | none =>
    rw [hlookup] at hslot
    exact absurd hslot.symm (name_ne_nil hreads)
  | some found =>
    rw [hlookup] at hslot
    obtain ⟨hfound, hrelevant, -⟩ := h.held.fused r layer found hlookup
    rw [h.eq_of_name hfound hmem hrelevant hslot.symm]

theorem Imported.tensorSound (h : Imported c m t) (hlookup : (t.fused r).lookup layer = some tensor) :
    TensorSound tensor := by
  obtain ⟨hmem, hrelevant, -⟩ := h.held.fused r layer tensor hlookup
  refine h.sound.tensors tensor ?_
  rw [h.tensors, List.mem_filter, decide_eq_true_eq]
  exact ⟨hmem, hrelevant⟩

/-- the experts of a fused layer come from its tensors -/
theorem Imported.cut (h : Imported c m t) (hlookup : t.fusedGateUp.lookup layer = some tensor)
    {e : ManifestExpertMapping} (he : e ∈ m.expertsOf layer) : FromSlices m.config t e := by
  obtain ⟨hmem, hlayer⟩ := List.mem_filter.mp he
  obtain ⟨experts, hperm, hcollected⟩ := h.inspected.experts
  rcases h.slices e hmem with ⟨k, hk⟩ | hslices
  · have hkey := h.inspected.loop.keyed.experts k e hk
    refine absurd ?_ (hcollected.unmixed layer tensor hlookup k (Table.mem_keys_of_lookup hk))
    rw [← hkey]
    exact of_decide_eq_true hlayer
  · exact hslices

theorem Imported.exists_expert (h : Imported c m t) (hlookup : t.fusedGateUp.lookup layer = some tensor) :
    ∃ e, e ∈ m.expertsOf layer := by
  obtain ⟨experts, hperm, hcollected⟩ := h.inspected.experts
  obtain ⟨e, he, hlayer, -⟩ := hcollected.fused layer tensor hlookup 0 h.limits.experts
  exact ⟨e, List.mem_filter.mpr ⟨hperm.mem_iff.mpr he, decide_eq_true hlayer⟩⟩

end

/-! ## addresses -/

/-- the first byte of an element -/
def elementAt (offset : UInt64) (shape : Shape) (dtype : DType) (index : List Nat) : Nat :=
  offset.toNat + address shape.strides index * dtype.sizeOf.toNat

section
variable {shape : Shape} {dtype : DType} {offset a b d : UInt64} {i r c : Nat}

theorem elementAt_pair (hdimensions : shape.dimensions = [a, b]) (h : shape.isContiguous = true)
    (hr : r < a.toNat) (hc : c < b.toNat) : elementAt offset shape dtype [r, c] =
      offset.toNat + (r * b.toNat + c) * dtype.sizeOf.toNat := by
  have hindex : InRange shape.dimensions [r, c] := by
    rw [hdimensions]
    exact .cons hr (.cons hc .nil)
  unfold elementAt
  rw [shape.address_rowMajor h hindex, hdimensions]
  simp only [rowMajor, size, List.map_cons, List.map_nil, List.prod_cons, List.prod_nil, Nat.mul_one,
    Nat.add_zero]

theorem elementAt_triple (offset : UInt64) (dtype : DType) (hdimensions : shape.dimensions = [a, b, d]) (h : shape.isContiguous = true)
    (hi : i < a.toNat) (hr : r < b.toNat) (hc : c < d.toNat) :
    InRange shape.dimensions [i, r, c] ∧ elementAt offset shape dtype [i, r, c] =
      offset.toNat + (i * (b.toNat * d.toNat) + (r * d.toNat + c)) * dtype.sizeOf.toNat := by
  have hindex : InRange shape.dimensions [i, r, c] := by
    rw [hdimensions]
    exact .cons hi (.cons hr (.cons hc .nil))
  refine ⟨hindex, ?_⟩
  unfold elementAt
  rw [shape.address_rowMajor h hindex, hdimensions]
  simp only [rowMajor, size, List.map_cons, List.map_nil, List.prod_cons, List.prod_nil, Nat.mul_one,
    Nat.add_zero]

end

/-! ## sizes, over exact integers -/

def tensorRange (tensor : ManifestTensor) : AddressRange := ⟨tensor.offset.toNat, tensor.size.toNat⟩

def locationRange (p : ProjectionLocation) : AddressRange := ⟨p.offset.toNat, p.size.toNat⟩

/-- the bytes of one projection of one expert -/
def projectionSize (config : ModelConfig) (dtype : DType) : Nat :=
  config.intermediateSize.toNat * config.hiddenSize.toNat * dtype.sizeOf.toNat

/-- every product and every sum that the code computes for a layer is a word -/
structure Unwrapped (config : ModelConfig) (gateUp down : ManifestTensor) : Prop where
  doubled : 2 * config.intermediateSize.toNat < 2 ^ 64
  elements : config.intermediateSize.toNat * config.hiddenSize.toNat < 2 ^ 64
  bytes : projectionSize config gateUp.dtype < 2 ^ 64
  gate : ∀ expert < config.expertCount.toNat, expert * 2 < 2 ^ 64 ∧
    expert * 2 * projectionSize config gateUp.dtype < 2 ^ 64 ∧
    gateUp.offset.toNat + expert * 2 * projectionSize config gateUp.dtype < 2 ^ 64
  up : ∀ expert < config.expertCount.toNat,
    expert * 2 * projectionSize config gateUp.dtype + projectionSize config gateUp.dtype < 2 ^ 64 ∧
    gateUp.offset.toNat +
      (expert * 2 * projectionSize config gateUp.dtype + projectionSize config gateUp.dtype) < 2 ^ 64
  down : ∀ expert < config.expertCount.toNat,
    expert * projectionSize config gateUp.dtype < 2 ^ 64 ∧
    down.offset.toNat + expert * projectionSize config gateUp.dtype < 2 ^ 64

section
variable {gateUp down : ManifestTensor} {projectionBytes downBytes : UInt64} {expert : Nat}
  {x : ManifestExpertMapping}

theorem toNat_doubled (h : Limits config) :
    (2 * config.intermediateSize).toNat = 2 * config.intermediateSize.toNat := by
  rw [UInt64.toNat_mul]
  exact Nat.mod_eq_of_lt h.doubled

theorem FusedLayer.gateUpSize (h : FusedLayer config gateUp down projectionBytes downBytes)
    (hlimits : Limits config) (hsound : TensorSound gateUp) :
    gateUp.size.toNat = config.expertCount.toNat * 2 * projectionSize config gateUp.dtype := by
  rw [hsound.contiguous h.gateUpContiguous, h.gateUpShape]
  simp only [List.map_cons, List.map_nil, List.prod_cons, List.prod_nil, Nat.mul_one, projectionSize,
    toNat_doubled hlimits]
  ring

theorem FusedLayer.downSize (h : FusedLayer config gateUp down projectionBytes downBytes)
    (hsound : TensorSound down) :
    down.size.toNat = config.expertCount.toNat * projectionSize config gateUp.dtype := by
  rw [hsound.contiguous h.downContiguous, h.downShape, h.dtype]
  simp only [List.map_cons, List.map_nil, List.prod_cons, List.prod_nil, Nat.mul_one, projectionSize]
  ring

theorem FusedLayer.unwrapped (h : FusedLayer config gateUp down projectionBytes downBytes)
    (hlimits : Limits config) (hsound : TensorSound gateUp) (hsound' : TensorSound down) :
    Unwrapped config gateUp down := by
  have hgateUp := hsound.bounded
  have hdown := hsound'.bounded
  rw [h.gateUpSize hlimits hsound] at hgateUp
  rw [h.downSize hsound'] at hdown
  have hbytes : projectionSize config gateUp.dtype < 2 ^ 64 := by
    have hword := UInt64.toNat_lt projectionBytes
    rwa [h.projectionBytes] at hword
  have hids := hlimits.expertIds
  have hwidth := toNat_pos gateUp.dtype.sizeOf_ne_zero
  have hfirst : ∀ expert < config.expertCount.toNat,
      expert * 2 * projectionSize config gateUp.dtype + projectionSize config gateUp.dtype +
        projectionSize config gateUp.dtype ≤
      config.expertCount.toNat * 2 * projectionSize config gateUp.dtype := fun expert hexpert => by
    calc _ = (expert + 1) * 2 * projectionSize config gateUp.dtype := by ring
      _ ≤ _ := Nat.mul_le_mul_right _ (Nat.mul_le_mul_right 2 hexpert)
  have hsecond : ∀ expert < config.expertCount.toNat,
      expert * projectionSize config gateUp.dtype ≤
      config.expertCount.toNat * projectionSize config gateUp.dtype := fun expert hexpert =>
    Nat.mul_le_mul_right _ hexpert.le
  exact
    { doubled := hlimits.doubled
      elements := Nat.lt_of_le_of_lt (Nat.le_mul_of_pos_right _ hwidth) hbytes
      bytes := hbytes
      gate := fun expert hexpert => by
        have := hfirst expert hexpert
        omega
      up := fun expert hexpert => by
        have := hfirst expert hexpert
        omega
      down := fun expert hexpert => by
        have := hsecond expert hexpert
        omega }

/-- a slice begins where it should, in exact arithmetic -/
theorem Slice.range {tensor : ManifestTensor} {relative bytes rows columns : UInt64}
    {p : ProjectionLocation} {start size : Nat} (h : Slice tensor relative bytes rows columns p)
    (hrelative : relative.toNat = start) (hbytes : bytes.toNat = size)
    (hlt : tensor.offset.toNat + start < 2 ^ 64) :
    locationRange p = ⟨tensor.offset.toNat + start, size⟩ := by
  unfold locationRange
  rw [h.offset, h.size, hbytes, UInt64.toNat_add, hrelative, Nat.mod_eq_of_lt hlt]

theorem Cut.ranges (hcut : Cut config gateUp down projectionBytes downBytes expert x)
    (h : FusedLayer config gateUp down projectionBytes downBytes) (hu : Unwrapped config gateUp down)
    (hexpert : expert < config.expertCount.toNat) :
    locationRange x.gate =
      .part gateUp.offset.toNat (projectionSize config gateUp.dtype) (expert * 2) ∧
    locationRange x.up =
      .part gateUp.offset.toNat (projectionSize config gateUp.dtype) (expert * 2 + 1) ∧
    locationRange x.down = .part down.offset.toNat (projectionSize config gateUp.dtype) expert := by
  obtain ⟨hdouble, hproduct, hgate⟩ := hu.gate expert hexpert
  obtain ⟨hsum, hup⟩ := hu.up expert hexpert
  obtain ⟨hdownProduct, hdown⟩ := hu.down expert hexpert
  have hid : (UInt64.ofNat expert).toNat = expert := by
    rw [UInt64.toNat_ofNat']
    exact Nat.mod_eq_of_lt (by omega)
  have h2 : (2 : UInt64).toNat = 2 := rfl
  have hbytes : projectionBytes.toNat = projectionSize config gateUp.dtype := h.projectionBytes
  have hdownBytes : downBytes.toNat = projectionSize config gateUp.dtype := h.downBytes
  have hgateOffset : (UInt64.ofNat expert * 2 * projectionBytes).toNat =
      expert * 2 * projectionSize config gateUp.dtype := by
    rw [UInt64.toNat_mul, UInt64.toNat_mul, hid, h2, hbytes, Nat.mod_eq_of_lt hdouble,
      Nat.mod_eq_of_lt hproduct]
  have hupOffset : (UInt64.ofNat expert * 2 * projectionBytes + projectionBytes).toNat =
      (expert * 2 + 1) * projectionSize config gateUp.dtype := by
    rw [UInt64.toNat_add, hgateOffset, hbytes, Nat.mod_eq_of_lt hsum, Nat.succ_mul]
  have hdownOffset : (UInt64.ofNat expert * downBytes).toNat =
      expert * projectionSize config gateUp.dtype := by
    rw [UInt64.toNat_mul, hid, hdownBytes, Nat.mod_eq_of_lt hdownProduct]
  rw [← Nat.succ_mul] at hup
  exact ⟨hcut.gate.range hgateOffset hbytes hgate, hcut.up.range hupOffset hbytes hup,
    hcut.down.range hdownOffset hdownBytes hdown⟩

end

/-! ## the slices tile the tensors -/

/-- the elements of an expert's slices are elements of the fused tensors -/
structure SameElements (config : ModelConfig) (gateUp down : ManifestTensor) (x : ManifestExpertMapping) :
    Prop where
  gate : ∀ r < config.intermediateSize.toNat, ∀ c < config.hiddenSize.toNat,
    InRange gateUp.shape.dimensions [x.expertId.toNat, r, c] ∧
    elementAt x.gate.offset x.gate.shape gateUp.dtype [r, c] =
      elementAt gateUp.offset gateUp.shape gateUp.dtype [x.expertId.toNat, r, c]
  up : ∀ r < config.intermediateSize.toNat, ∀ c < config.hiddenSize.toNat,
    InRange gateUp.shape.dimensions [x.expertId.toNat, config.intermediateSize.toNat + r, c] ∧
    elementAt x.up.offset x.up.shape gateUp.dtype [r, c] =
      elementAt gateUp.offset gateUp.shape gateUp.dtype
        [x.expertId.toNat, config.intermediateSize.toNat + r, c]
  down : ∀ r < config.hiddenSize.toNat, ∀ c < config.intermediateSize.toNat,
    InRange down.shape.dimensions [x.expertId.toNat, r, c] ∧
    elementAt x.down.offset x.down.shape down.dtype [r, c] =
      elementAt down.offset down.shape down.dtype [x.expertId.toNat, r, c]

structure Tiled (m : ModelManifest) (layer : UInt32) (gateUp down : ManifestTensor) : Prop where
  experts : ((m.expertsOf layer).map fun x => x.expertId.toNat).Perm
    (List.range m.config.expertCount.toNat)
  names : ∀ x ∈ m.expertsOf layer, x.gate.tensorName = gateUp.name ∧
    x.up.tensorName = gateUp.name ∧ x.down.tensorName = down.name
  gateUpTile : AddressRange.Tile
    ((m.expertsOf layer).flatMap fun x => [locationRange x.gate, locationRange x.up]) (tensorRange gateUp)
  downTile : AddressRange.Tile ((m.expertsOf layer).map fun x => locationRange x.down) (tensorRange down)
  elements : ∀ x ∈ m.expertsOf layer, SameElements m.config gateUp down x
  unwrapped : Unwrapped m.config gateUp down

section
variable {gateUp down : ManifestTensor} {projectionBytes downBytes : UInt64} {expert : Nat}
  {x : ManifestExpertMapping}

/-- the word of an offset, read off its range -/
theorem toNat_offset {p : ProjectionLocation} {start width k : Nat}
    (h : locationRange p = .part start width k) : p.offset.toNat = start + k * width :=
  congrArg AddressRange.start h

theorem Cut.sameElements (hcut : Cut config gateUp down projectionBytes downBytes expert x)
    (h : FusedLayer config gateUp down projectionBytes downBytes) (hlimits : Limits config)
    (hu : Unwrapped config gateUp down) (hexpert : expert < config.expertCount.toNat)
    (hid : x.expertId.toNat = expert) : SameElements config gateUp down x := by
  obtain ⟨hgate, hup, hdown⟩ := hcut.ranges h hu hexpert
  have hdouble := toNat_doubled hlimits
  refine ⟨fun r hr c hc => ?_, fun r hr c hc => ?_, fun r hr c hc => ?_⟩ <;> rw [hid]
  · obtain ⟨hrange, hat⟩ := elementAt_triple gateUp.offset gateUp.dtype
      h.gateUpShape h.gateUpContiguous hexpert
      (show r < (2 * config.intermediateSize).toNat by omega) hc
    refine ⟨hrange, ?_⟩
    rw [hat, elementAt_pair hcut.gate.dimensions hcut.gate.contiguous hr hc, toNat_offset hgate, hdouble]
    unfold projectionSize
    ring
  · obtain ⟨hrange, hat⟩ := elementAt_triple gateUp.offset gateUp.dtype
      h.gateUpShape h.gateUpContiguous hexpert
      (show config.intermediateSize.toNat + r < (2 * config.intermediateSize).toNat by omega) hc
    refine ⟨hrange, ?_⟩
    rw [hat, elementAt_pair hcut.up.dimensions hcut.up.contiguous hr hc, toNat_offset hup, hdouble]
    unfold projectionSize
    ring
  · obtain ⟨hrange, hat⟩ := elementAt_triple down.offset down.dtype
      h.downShape h.downContiguous hexpert hr hc
    refine ⟨hrange, ?_⟩
    rw [hat, elementAt_pair hcut.down.dimensions hcut.down.contiguous hr hc, toNat_offset hdown, h.dtype]
    unfold projectionSize
    ring

end

section
variable {xs : List ManifestExpertMapping} {start width n : Nat}

theorem tile_gate_up (hids : (xs.map fun x => x.expertId.toNat).Perm (List.range n))
    (hgate : ∀ x ∈ xs, locationRange x.gate = .part start width (x.expertId.toNat * 2))
    (hup : ∀ x ∈ xs, locationRange x.up = .part start width (x.expertId.toNat * 2 + 1)) :
    AddressRange.Tile (xs.flatMap fun x => [locationRange x.gate, locationRange x.up])
      ⟨start, n * 2 * width⟩ := by
  have hnumbers := hids.flatMap_right fun k => [k * 2, k * 2 + 1]
  rw [AddressRange.range_pairs, List.flatMap_map] at hnumbers
  have htile := AddressRange.tile_parts start width hnumbers
  rw [List.map_flatMap] at htile
  have hparts : (xs.flatMap fun x => [locationRange x.gate, locationRange x.up]) =
      xs.flatMap fun x => [x.expertId.toNat * 2, x.expertId.toNat * 2 + 1].map (.part start width) :=
    List.flatMap_congr fun x hx => by
      rw [hgate x hx, hup x hx]
      rfl
  rw [hparts]
  exact htile

theorem tile_down (hids : (xs.map fun x => x.expertId.toNat).Perm (List.range n))
    (hdown : ∀ x ∈ xs, locationRange x.down = .part start width x.expertId.toNat) :
    AddressRange.Tile (xs.map fun x => locationRange x.down) ⟨start, n * width⟩ := by
  have htile := AddressRange.tile_parts start width hids
  rw [List.map_map] at htile
  rw [List.map_congr_left hdown]
  exact htile

end

/-- every expert of a fused layer is cut from its two tensors -/
theorem Imported.cut_of_layer {c : Checkpoint} {m : ModelManifest} {layer : UInt32}
    {gateUp down : ManifestTensor} (h : Imported c m t)
    (hgateUp : t.fusedGateUp.lookup layer = some gateUp) (hdown : t.fusedDown.lookup layer = some down)
    {x : ManifestExpertMapping} (hx : x ∈ m.expertsOf layer) : ∃ projectionBytes downBytes,
      FusedLayer m.config gateUp down projectionBytes downBytes ∧
      x.expertId.toNat < m.config.expertCount.toNat ∧
      Cut m.config gateUp down projectionBytes downBytes x.expertId.toNat x := by
  obtain ⟨gateUp', down', projectionBytes, downBytes, expert, hgateUp', hdown', hfused, hlt, hcut⟩ :=
    h.cut hgateUp hx
  have hlayer : x.layerId = layer := of_decide_eq_true (List.mem_filter.mp hx).2
  rw [hlayer] at hgateUp' hdown'
  obtain rfl := Option.some.inj (hgateUp.symm.trans hgateUp')
  obtain rfl := Option.some.inj (hdown.symm.trans hdown')
  have hid : x.expertId.toNat = expert := by
    have hids := h.limits.expertIds
    rw [hcut.expertId, UInt32.toNat_ofNat']
    exact Nat.mod_eq_of_lt (by omega)
  exact ⟨projectionBytes, downBytes, hfused, hid ▸ hlt, hid ▸ hcut⟩

/-- the slices of every fused layer of an accepted checkpoint tile its tensors -/
theorem fused_slices_tile (asFloat : JsonValue → Except MetadataError Binary32) (c : Checkpoint)
    (m : ModelManifest) (h : ((inspect asFloat c).exec true).1 = .ok m) (layer : UInt32)
    (gateUp : ManifestTensor) (hmem : gateUp ∈ c.tensors)
    (hreads : reads gateUp (layer, .fused .gateUp) = true) :
    ∃ down ∈ c.tensors, reads down (layer, .fused .down) = true ∧ Tiled m layer gateUp down := by
  obtain ⟨t, ht⟩ := returns_imported asFloat c true m h
  have hlookup : t.fusedGateUp.lookup layer = some gateUp := ht.lookup_of_reads hmem hreads
  obtain ⟨e₀, he₀⟩ := ht.exists_expert hlookup
  have hlayer₀ : e₀.layerId = layer := of_decide_eq_true (List.mem_filter.mp he₀).2
  obtain ⟨_, down, _, _, _, -, hdown, -⟩ := ht.cut hlookup he₀
  rw [hlayer₀] at hdown
  obtain ⟨hdownMem, -, hdownReads⟩ := ht.held.fused .down layer down hdown
  have hsound : TensorSound gateUp := ht.tensorSound (r := .gateUp) hlookup
  have hsound' : TensorSound down := ht.tensorSound (r := .down) hdown
  obtain ⟨_, _, hfused, -⟩ := ht.cut_of_layer hlookup hdown he₀
  have hu := hfused.unwrapped ht.limits hsound hsound'
  obtain ⟨hexperts, -⟩ := ht.sound.complete layer (List.ne_nil_of_mem he₀)
  have hranges : ∀ x ∈ m.expertsOf layer,
      locationRange x.gate = .part gateUp.offset.toNat (projectionSize m.config gateUp.dtype)
        (x.expertId.toNat * 2) ∧
      locationRange x.up = .part gateUp.offset.toNat (projectionSize m.config gateUp.dtype)
        (x.expertId.toNat * 2 + 1) ∧
      locationRange x.down = .part down.offset.toNat (projectionSize m.config gateUp.dtype)
        x.expertId.toNat := fun x hx => by
    obtain ⟨_, _, hfused', hlt, hcut⟩ := ht.cut_of_layer hlookup hdown hx
    exact hcut.ranges hfused' hu hlt
  refine ⟨down, hdownMem, hdownReads, ?_⟩
  refine
    { experts := hexperts
      names := fun x hx => ?_
      gateUpTile := ?_
      downTile := ?_
      elements := fun x hx => ?_
      unwrapped := hu }
  · obtain ⟨_, _, -, -, hcut⟩ := ht.cut_of_layer hlookup hdown hx
    exact ⟨hcut.gate.tensorName, hcut.up.tensorName, hcut.down.tensorName⟩
  · unfold tensorRange
    rw [hfused.gateUpSize ht.limits hsound]
    exact tile_gate_up hexperts (fun x hx => (hranges x hx).1) fun x hx => (hranges x hx).2.1
  · unfold tensorRange
    rw [hfused.downSize hsound']
    exact tile_down hexperts fun x hx => (hranges x hx).2.2
  · obtain ⟨_, _, hfused', hlt, hcut⟩ := ht.cut_of_layer hlookup hdown hx
    exact hcut.sameElements hfused' ht.limits hu hlt rfl

/-! ## two experts in one pair of tensors -/

def fusedConfig : JsonValue := .object
  [(ascii "model_type", .string (ascii "qwen3_moe")),
   (ascii "num_hidden_layers", .number (ascii "1")),
   (ascii "num_experts", .number (ascii "2")),
   (ascii "hidden_size", .number (ascii "1")),
   (ascii "moe_intermediate_size", .number (ascii "2")),
   (ascii "num_experts_per_tok", .number (ascii "1")),
   (ascii "norm_topk_prob", .bool true),
   (ascii "head_dim", .number (ascii "2"))]

def twoByFourByOne : Shape := ⟨⟨[2, 4, 1], [4, 1, 1], 8, 8⟩, .inl rfl⟩

def twoByOneByTwo : Shape := ⟨⟨[2, 1, 2], [2, 2, 1], 4, 4⟩, .inl rfl⟩

def fusedGateUp : ManifestTensor :=
  sampleTensor "model.layers.0.mlp.experts.gate_up_proj" twoByFourByOne 32

def fusedSample : Checkpoint where
  config := fusedConfig
  rootName := ascii "m"
  tensors :=
    [sampleTensor "model.layers.0.mlp.gate.weight" twoByOne 8, fusedGateUp,
     sampleTensor "model.layers.0.mlp.experts.down_proj" twoByOneByTwo 16]

theorem fused_slices_tile_sample : ∃ m, ((inspect noFloat fusedSample).exec true).1 = .ok m ∧
    ∃ down ∈ fusedSample.tensors, reads down (0, .fused .down) = true ∧ Tiled m 0 fusedGateUp down := by
  obtain ⟨m, hm⟩ := manifest_of_accepted (c := fusedSample) (by decide +kernel)
  exact ⟨m, hm, fused_slices_tile noFloat fusedSample m hm 0 fusedGateUp
    (List.mem_cons_of_mem _ List.mem_cons_self) (by decide +kernel)⟩

end HyperMoE.Importer.Qwen
