import HyperMoE.Conversion.ExpertPacker
import HyperMoE.Tensor.Quantization

/-!
# What was packed is the model that was read

The output only grows, and so does the list of its tensors: what was said of a weight when it was
written holds of the finished file.

* `Grows`, `Later`   what comes behind;
* `Packs`            what one step of a loop promises;
* `each_packs`       what the loop promises then;
* `verify_eq_ok`     what the verification finds;
* `pack_preserves`   the packer.
-/

namespace HyperMoE.Conversion

open Lib Lib.Outcome Tensor Models Storage
open Importer.RealCheckpoint (ExpertStorageEncoding)

/-! ## growth -/

/-- what was written, and what was pushed, stays -/
structure Grows (p q : Packing) : Prop where
  output : p.output.bytes <+: q.output.bytes
  tensors : p.tensors ⊆ q.tensors
  projections : p.projections ⊆ q.projections

theorem Grows.refl (p : Packing) : Grows p p :=
  ⟨List.prefix_refl _, List.Subset.refl _, List.Subset.refl _⟩

theorem Grows.trans {p q r : Packing} (h : Grows p q) (h' : Grows q r) : Grows p r :=
  ⟨h.output.trans h'.output, List.Subset.trans h.tensors h'.tensors,
    List.Subset.trans h.projections h'.projections⟩

def Named (tensors : List ManifestTensor) : Prop := (tensors.map ManifestTensor.name).Nodup

/-- whatever is written behind, if the names stay apart -/
def Later (p : Packing) (P : Packing → Prop) : Prop := ∀ q, Grows p q → Named q.tensors → P q

/-- the cursor stands at the end -/
def Counted (p : Packing) : Prop := p.output.bytes.length = p.cursor.toNat

/-- from a state to the one behind it, with what holds from there on -/
structure Reaches (p p' : Packing) (P : Packing → Prop) : Prop where
  counted : Counted p'
  grows : Grows p p'
  later : Later p' P

/-- what two steps promise, one behind the other -/
theorem Reaches.andThen {p p₁ p₂ : Packing} {P Q : Packing → Prop} (h : Reaches p p₁ P)
    (h' : Reaches p₁ p₂ Q) : Reaches p p₂ fun q => P q ∧ Q q where
  counted := h'.counted
  grows := h.grows.trans h'.grows
  later q hq hnamed := ⟨h.later q (h'.grows.trans hq) hnamed, h'.later q hq hnamed⟩

theorem Reaches.mono {p p' : Packing} {P Q : Packing → Prop} (h : Reaches p p' P)
    (hPQ : ∀ q, P q → Q q) : Reaches p p' Q :=
  ⟨h.counted, h.grows, fun q hq hnamed => hPQ q (h.later q hq hnamed)⟩

/-- what a step promises about each value that is packed -/
def Packs {α β : Type} (f : α → Packing → Pack (β × Packing)) (R : Packing → α → β → Prop) : Prop :=
  ∀ a p b p', f a p = .ok (b, p') → Counted p → Reaches p p' fun q => R q a b

theorem each_packs {α β : Type} {f : α → Packing → Pack (β × Packing)} {R : Packing → α → β → Prop}
    (h : Packs f R) : Packs (each f) fun q => List.Forall₂ (R q) := by
  intro as
  induction as with
  | nil =>
    intro p bs p' hp hcounted
    obtain ⟨rfl, rfl⟩ := Prod.mk.inj (Except.ok.inj hp)
    exact ⟨hcounted, Grows.refl p, fun _ _ _ => .nil⟩
  | cons a as ih =>
    intro p bs p' hp hcounted
    obtain ⟨⟨b, p₁⟩, hfirst, hp⟩ := bind_eq_ok.mp hp
    obtain ⟨⟨bs₂, p₂⟩, hrest, hp⟩ := bind_eq_ok.mp hp
    obtain ⟨rfl, rfl⟩ := Prod.mk.inj (Except.ok.inj hp)
    have ha := h a p b p₁ hfirst hcounted
    have has := ih p₁ bs₂ p₂ hrest ha.counted
    exact (ha.andThen has).mono fun q hq => .cons hq.1 hq.2

theorem eachOption_packs {α β : Type} {f : α → Packing → Pack (β × Packing)}
    {R : Packing → α → β → Prop} (h : Packs f R) : Packs (eachOption f) fun q => Option.Rel (R q) := by
  intro a p b p' hp hcounted
  cases a with
  | none =>
    obtain ⟨rfl, rfl⟩ := Prod.mk.inj (Except.ok.inj hp)
    exact ⟨hcounted, Grows.refl p, fun _ _ _ => .none⟩
  | some a =>
    obtain ⟨⟨b', p₁⟩, hfirst, hp⟩ := bind_eq_ok.mp hp
    obtain ⟨rfl, rfl⟩ := Prod.mk.inj (Except.ok.inj hp)
    exact (h a p b' p₁ hfirst hcounted).mono fun q hq => .some hq

/-! ## look-ups -/

theorem findTensor_of_mem {tensors : List ManifestTensor} {t : ManifestTensor} (h : Named tensors)
    (ht : t ∈ tensors) : findTensor tensors t.name = some t := by
  induction tensors with
  | nil => cases ht
  | cons t' tensors ih =>
    unfold Named at h
    rw [List.map_cons, List.nodup_cons] at h
    rcases List.mem_cons.mp ht with rfl | ht
    · exact List.find?_cons_of_pos (by simp)
    · have hne : ¬ t'.name = t.name := fun heq => h.1 (heq ▸ List.mem_map_of_mem ht)
      exact (List.find?_cons_of_neg (by simpa using hne)).trans (ih h.2 ht)

theorem find_eq_ok {m : ModelManifest} {name : Text} {what : String} {t : ManifestTensor} :
    find m name what = .ok t ↔ findTensor m.tensors name = some t := by
  unfold find
  cases findTensor m.tensors name with
  | none =>
    constructor
    · intro h
      cases h
    · intro h
      cases h
  | some t' => exact ⟨fun h => congrArg some (Except.ok.inj h), fun h => congrArg _ (Option.some.inj h)⟩

theorem readRange_eq_ok {files : Files} {tensor : ManifestTensor} {location : ProjectionLocation}
    {bytes : List UInt8} (h : readRange files tensor location = .ok bytes) :
    ∃ file, files tensor.sourceFile = some file ∧
      bytes = file.read ⟨location.offset.toNat, location.size.toNat⟩ := by
  unfold readRange at h
  split at h
  · cases h
  next file hfile =>
  obtain ⟨-, h⟩ := throwIf_bind_eq_ok.mp h
  obtain ⟨-, h⟩ := throwIf_bind_eq_ok.mp h
  exact ⟨file, hfile, (pure_eq_ok.mp h).symm⟩

/-- what was read of a tensor is its weight -/
theorem of_eq {files : Files} {m : ModelManifest} {name : Text} {tensor : ManifestTensor}
    {layout : TensorLayout} {bytes : List UInt8} (htensor : findTensor m.tensors name = some tensor)
    (h : readRange files tensor (locationOf tensor layout) = .ok bytes) (layout' : TensorLayout) :
    Weights.of ⟨files, m.tensors⟩ name layout' = some ⟨bytes, tensor.shape, tensor.dtype, layout'⟩ := by
  obtain ⟨file, hfile, rfl⟩ := readRange_eq_ok h
  unfold Weights.of
  rw [htensor]
  show (files tensor.sourceFile).bind _ = _
  rw [hfile]
  rfl

theorem at_eq {files : Files} {m : ModelManifest} {location : ProjectionLocation}
    {tensor : ManifestTensor} {bytes : List UInt8}
    (htensor : findTensor m.tensors location.tensorName = some tensor)
    (h : readRange files tensor location = .ok bytes) :
    Weights.at ⟨files, m.tensors⟩ location =
      some ⟨bytes, location.shape, tensor.dtype, location.layout⟩ := by
  obtain ⟨file, hfile, rfl⟩ := readRange_eq_ok h
  unfold Weights.at
  rw [htensor]
  show (files tensor.sourceFile).bind _ = _
  rw [hfile]
  rfl

/-! ## what stands in the data file -/

/-- the entry's bytes are those of the weight -/
structure Stores (q : Packing) (t : ManifestTensor) (w : ConvertedWeight) : Prop where
  mem : t ∈ q.tensors
  file : t.sourceFile = dataName
  dtype : t.dtype = w.dtype
  shape : t.shape = w.shape
  bytes : q.output.read ⟨t.offset.toNat, t.size.toNat⟩ = w.bytes

section
variable {q : Packing} {t : ManifestTensor} {w : ConvertedWeight}

theorem Stores.of_eq (h : Stores q t w) (hnamed : Named q.tensors) (layout : TensorLayout) :
    q.weights.of t.name layout = some { w with layout } := by
  unfold Weights.of Packing.weights
  rw [findTensor_of_mem hnamed h.mem]
  show (dataFiles q.output t.sourceFile).bind _ = _
  rw [dataFiles, if_pos h.file]
  show some _ = some _
  rw [h.bytes, h.shape, h.dtype]

theorem Stores.at_eq (h : Stores q t w) (hnamed : Named q.tensors) (layout : TensorLayout) :
    q.weights.at (locationOf t layout) = some { w with layout } := by
  unfold Weights.at Packing.weights
  show (findTensor q.tensors t.name).bind _ = _
  rw [findTensor_of_mem hnamed h.mem]
  show (dataFiles q.output t.sourceFile).bind _ = _
  rw [dataFiles, if_pos h.file]
  show some (ConvertedWeight.mk (q.output.read ⟨t.offset.toNat, t.size.toNat⟩) _ _ _) = some _
  rw [h.bytes, h.dtype, ← h.shape]
  rfl

end

/-- bytes behind others, in the finished file -/
theorem read_of_prefix {file : File} {before bytes : List UInt8} {offset size : UInt64}
    (h : before ++ bytes <+: file.bytes) (hoffset : offset.toNat = before.length)
    (hsize : size = UInt64.ofNat bytes.length) :
    file.read ⟨offset.toNat, size.toNat⟩ = bytes := by
  obtain ⟨rest, hrest⟩ := h
  have hlength : bytes.length < 2 ^ 64 := by
    have hsmall := file.small
    rw [← hrest] at hsmall
    simp only [List.length_append] at hsmall
    omega
  rw [hsize, UInt64.toNat_ofNat_of_lt' hlength, hoffset]
  unfold File.read
  rw [← hrest, List.append_assoc, List.drop_left, List.take_left]

section
variable {answers : PackAnswers} {encoding : ExpertStorageEncoding} {files : Files}
  {source : ModelManifest} {p p' : Packing}

theorem write_eq_ok {what : String} {bytes : List UInt8} {output : File}
    (h : write answers what bytes p = .ok output) : output.bytes = p.output.bytes ++ bytes := by
  obtain ⟨-, h⟩ := throwIf_bind_eq_ok.mp h
  split at h
  · next happend =>
    obtain rfl := Except.ok.inj h
    exact append_bytes happend
  · cases h

theorem toNat_room (c : UInt64) : (maxWord - c).toNat = 2 ^ 64 - 1 - c.toNat := by
  have hle : c ≤ maxWord := UInt64.le_iff_toNat_le.mpr (by
    have := c.toNat_lt
    rw [Watched.toNat_maxWord]
    omega)
  rw [UInt64.toNat_sub_of_le _ _ hle, Watched.toNat_maxWord]

/-- behind the end there is room -/
theorem toNat_advance {c : UInt64} {n : Nat} (h : n ≤ (maxWord - c).toNat) :
    (c + UInt64.ofNat n).toNat = c.toNat + n := by
  have hc := c.toNat_lt
  rw [toNat_room] at h
  have hlt : n < 2 ^ 64 := by omega
  have hn : (UInt64.ofNat n).toNat = n := UInt64.toNat_ofNat_of_lt' hlt
  rw [UInt64.toNat_add, hn, Nat.mod_eq_of_lt (by omega)]

theorem appendTensor_reaches {tooLarge failed : String} {name : Text} {w : ConvertedWeight}
    (h : appendTensor answers tooLarge failed name w p = .ok p') (hcounted : Counted p) :
    Reaches p p' fun q => ∀ layout, q.weights.of name layout = some { w with layout } := by
  obtain ⟨hroom, h⟩ := throwIf_bind_eq_ok.mp h
  obtain ⟨output, hwrite, h⟩ := bind_eq_ok.mp h
  obtain rfl := (pure_eq_ok.mp h).symm
  have hbytes := write_eq_ok hwrite
  rw [not_or, Nat.not_lt, Nat.not_lt] at hroom
  refine ⟨?_, ⟨?_, List.subset_append_left _ _, List.Subset.refl _⟩, fun q hq hnamed layout => ?_⟩
  · show output.bytes.length = (p.cursor + _).toNat
    rw [toNat_advance hroom.2, hbytes, List.length_append, hcounted]
  · show p.output.bytes <+: output.bytes
    rw [hbytes]
    exact List.prefix_append _ _
  · have hprefix : p.output.bytes ++ w.bytes <+: q.output.bytes := hbytes ▸ hq.output
    have hstores : Stores q (packedTensor name p.cursor w none) w :=
      { mem := hq.tensors (List.mem_append_right _ List.mem_cons_self)
        file := rfl
        dtype := rfl
        shape := rfl
        bytes := read_of_prefix hprefix hcounted.symm rfl }
    exact hstores.of_eq hnamed layout

/-! ## matrices and vectors -/

section
variable {tensor : ManifestTensor} {layout : TensorLayout} {name name' : Text} {bytes : List UInt8}

/-- what was read of a tensor, converted and written -/
theorem converted_reaches {tooLarge failed : String} {w : ConvertedWeight}
    (htensor : findTensor source.tensors name = some tensor)
    (hread : readRange files tensor (locationOf tensor layout) = .ok bytes)
    (hconvert : convert bytes tensor.shape tensor.dtype layout .InputOutput = .ok w)
    (h : appendTensor answers tooLarge failed name' w p = .ok p') (hcounted : Counted p) :
    Reaches p p' fun q => SameBinding ⟨files, source.tensors⟩ q.weights ⟨name, layout⟩
      ⟨name', .InputOutput⟩ := by
  refine (appendTensor_reaches h hcounted).mono fun q hq => ?_
  have hlayout := (matches_convert hconvert).2.2
  refine ⟨_, w, of_eq htensor hread layout, ?_, sameWeight_convert hconvert⟩
  rw [hq .InputOutput, ← hlayout]

/-- what was read of a tensor, written as it is -/
theorem unchanged_reaches {tooLarge failed : String}
    (htensor : findTensor source.tensors name = some tensor)
    (hread : readRange files tensor (locationOf tensor .InputOutput) = .ok bytes)
    (h : appendTensor answers tooLarge failed name' ⟨bytes, tensor.shape, tensor.dtype, .InputOutput⟩ p =
      .ok p') (hcounted : Counted p) :
    Reaches p p' fun q => ∀ layout, SameTensor (Weights.of ⟨files, source.tensors⟩ name layout)
      (q.weights.of name' layout) :=
  (appendTensor_reaches h hcounted).mono fun _ hq layout =>
    ⟨_, of_eq htensor hread layout, hq layout⟩

theorem packMatrix_reaches {rankTwo tooLarge failed : String}
    (htensor : findTensor source.tensors name = some tensor)
    (h : packMatrix answers files rankTwo tooLarge failed tensor layout name' p = .ok p')
    (hcounted : Counted p) :
    Reaches p p' fun q => SameBinding ⟨files, source.tensors⟩ q.weights ⟨name, layout⟩
      ⟨name', .InputOutput⟩ := by
  obtain ⟨bytes, hread, h⟩ := bind_eq_ok.mp h
  obtain ⟨-, h⟩ := throwIf_bind_eq_ok.mp h
  obtain ⟨w, hconvert, h⟩ := bind_eq_ok.mp h
  exact converted_reaches htensor hread (mapError_eq_ok.mp hconvert) h hcounted

end

theorem packRouter_packs : Packs (packRouter answers files source) fun q =>
    SameRouter ⟨files, source.tensors⟩ q.weights source.router.layout .InputOutput := by
  intro r p r' p' h hcounted
  obtain ⟨tensor, htensor, h⟩ := bind_eq_ok.mp h
  obtain ⟨p₁, hpack, h⟩ := bind_eq_ok.mp h
  obtain ⟨rfl, rfl⟩ := Prod.mk.inj (Except.ok.inj h)
  exact (packMatrix_reaches (find_eq_ok.mp htensor) hpack hcounted).mono fun q hq => ⟨rfl, hq⟩

theorem packTensor_packs (layerId : UInt32) (role : String) :
    Packs (fun b => packTensor answers files source layerId b role) fun q =>
      SameBinding ⟨files, source.tensors⟩ q.weights := by
  intro b p b' p' h hcounted
  obtain ⟨tensor, htensor, h⟩ := bind_eq_ok.mp h
  obtain ⟨p₁, hpack, h⟩ := bind_eq_ok.mp h
  obtain ⟨rfl, rfl⟩ := Prod.mk.inj (Except.ok.inj h)
  exact packMatrix_reaches (find_eq_ok.mp htensor) hpack hcounted

theorem packNorm_packs (layerId : UInt32) (role : String) :
    Packs (fun name => packNorm answers files source layerId name role) fun q =>
      SameNorm ⟨files, source.tensors⟩ q.weights := by
  intro name p name' p' h hcounted
  obtain ⟨tensor, htensor, h⟩ := bind_eq_ok.mp h
  obtain ⟨-, h⟩ := throwIf_bind_eq_ok.mp h
  obtain ⟨bytes, hread, h⟩ := bind_eq_ok.mp h
  obtain ⟨p₁, hpack, h⟩ := bind_eq_ok.mp h
  obtain ⟨rfl, rfl⟩ := Prod.mk.inj (Except.ok.inj h)
  exact (unchanged_reaches (find_eq_ok.mp htensor) hread hpack hcounted).mono fun q hq =>
    hq .InputOutput

theorem packOptionalNorm_packs (layerId : UInt32) (role : String) :
    Packs (fun name => packOptionalNorm answers files source layerId name role) fun q =>
      SameOptionalNorm ⟨files, source.tensors⟩ q.weights := by
  intro name p name' p' h hcounted
  have h : packOptionalNorm answers files source layerId name role p = .ok (name', p') := h
  unfold packOptionalNorm at h
  split at h
  · next hname =>
    obtain ⟨rfl, rfl⟩ := Prod.mk.inj (Except.ok.inj h)
    exact ⟨hcounted, Grows.refl p, fun _ _ _ => .inl ⟨hname, rfl⟩⟩
  · exact (packNorm_packs layerId role name p name' p' h hcounted).mono fun q hq => .inr hq

/-! ## layers -/

/-- the router of a layer is the one that was packed for its tensor -/
theorem packedRouterName_later {q : Packing} {layout layout' : TensorLayout}
    {routers routers' : List ManifestRouterTensor} {name name' : Text}
    (hrouters : List.Forall₂ (SameRouter ⟨files, source.tensors⟩ q.weights layout layout') routers
      routers') (h : packedRouterName (routers.zip routers') name = .ok name') :
    SameBinding ⟨files, source.tensors⟩ q.weights ⟨name, layout⟩ ⟨name', layout'⟩ := by
  unfold packedRouterName at h
  split at h
  · next router hfind =>
    obtain rfl := Except.ok.inj h
    have hfound := List.find?_some hfind
    have hname : router.1.tensorName = name := of_decide_eq_true hfound
    have hsame := (List.forall₂_iff_zip.mp hrouters).2 (List.mem_of_find?_eq_some hfind)
    exact hname ▸ hsame.tensor
  · cases h

/-- a layer, behind the routers -/
theorem packLayer_packs (layout : TensorLayout) (routers routers' : List ManifestRouterTensor) :
    Packs (packLayer answers files source (routers.zip routers')) fun q l l' =>
      List.Forall₂ (SameRouter ⟨files, source.tensors⟩ q.weights layout .InputOutput) routers routers' →
        SameLayer ⟨files, source.tensors⟩ q.weights layout .InputOutput l l' := by
  intro l p l' p' h hcounted
  obtain ⟨⟨query, p₁⟩, hquery, h⟩ := bind_eq_ok.mp h
  obtain ⟨⟨key, p₂⟩, hkey, h⟩ := bind_eq_ok.mp h
  obtain ⟨⟨value, p₃⟩, hvalue, h⟩ := bind_eq_ok.mp h
  obtain ⟨⟨output, p₄⟩, houtput, h⟩ := bind_eq_ok.mp h
  obtain ⟨⟨queryNorm, p₅⟩, hqueryNorm, h⟩ := bind_eq_ok.mp h
  obtain ⟨⟨keyNorm, p₆⟩, hkeyNorm, h⟩ := bind_eq_ok.mp h
  obtain ⟨⟨inputNorm, p₇⟩, hinputNorm, h⟩ := bind_eq_ok.mp h
  obtain ⟨⟨postAttentionNorm, p₈⟩, hpostAttentionNorm, h⟩ := bind_eq_ok.mp h
  obtain ⟨routerTensor, hrouter, h⟩ := bind_eq_ok.mp h
  obtain ⟨rfl, rfl⟩ := Prod.mk.inj (Except.ok.inj h)
  have r₁ := packTensor_packs l.layerId "q_proj" _ _ _ _ hquery hcounted
  have r₂ := packTensor_packs l.layerId "k_proj" _ _ _ _ hkey r₁.counted
  have r₃ := packTensor_packs l.layerId "v_proj" _ _ _ _ hvalue r₂.counted
  have r₄ := packTensor_packs l.layerId "o_proj" _ _ _ _ houtput r₃.counted
  have r₅ := packOptionalNorm_packs l.layerId "q_norm" _ _ _ _ hqueryNorm r₄.counted
  have r₆ := packOptionalNorm_packs l.layerId "k_norm" _ _ _ _ hkeyNorm r₅.counted
  have r₇ := packNorm_packs l.layerId "input_norm" _ _ _ _ hinputNorm r₆.counted
  have r₈ := packNorm_packs l.layerId "post_attention_norm" _ _ _ _ hpostAttentionNorm r₇.counted
  have hnorms := ((r₅.andThen r₆).andThen r₇).andThen r₈
  have hmatrices := ((r₁.andThen r₂).andThen r₃).andThen r₄
  refine (hmatrices.andThen hnorms).mono fun q hq hrouters => ?_
  obtain ⟨⟨⟨⟨hquery, hkey⟩, hvalue⟩, houtput⟩, ⟨⟨hqueryNorm, hkeyNorm⟩, hinputNorm⟩, hpostNorm⟩ := hq
  exact ⟨rfl, hquery, hkey, hvalue, houtput, hqueryNorm, hkeyNorm, hinputNorm, hpostNorm,
    packedRouterName_later hrouters hrouter⟩

/-! ## input and output -/

/-- what is stored by its inputs stays as it is -/
theorem packInputOutput_reaches {tensor : ManifestTensor} {name name' : Text}
    (htensor : findTensor source.tensors name = some tensor)
    (h : packInputOutput answers files tensor .InputOutput name' p = .ok p') (hcounted : Counted p) :
    Reaches p p' fun q => ∀ layout, SameTensor (Weights.of ⟨files, source.tensors⟩ name layout)
      (q.weights.of name' layout) := by
  obtain ⟨bytes, hread, h⟩ := bind_eq_ok.mp h
  obtain ⟨w, hconverted, h⟩ := bind_eq_ok.mp h
  have hw : w = ⟨bytes, tensor.shape, tensor.dtype, .InputOutput⟩ := by
    unfold convertMatrix at hconverted
    split at hconverted
    · exact (Except.ok.inj hconverted).symm
    · obtain ⟨-, hw⟩ := convert_eq_ok.mp (mapError_eq_ok.mp hconverted)
      rwa [if_pos rfl] at hw
  subst hw
  exact unchanged_reaches htensor hread h hcounted

theorem packHead_reaches {tensor : ManifestTensor} {layout : TensorLayout} {name name' : Text}
    (htensor : findTensor source.tensors name = some tensor)
    (h : packInputOutput answers files tensor layout name' p = .ok p') (hcounted : Counted p) :
    Reaches p p' fun q => tensor.shape.rank = 2 → SameBinding ⟨files, source.tensors⟩ q.weights
      ⟨name, layout⟩ ⟨name', .InputOutput⟩ := by
  obtain ⟨bytes, hread, h⟩ := bind_eq_ok.mp h
  obtain ⟨w, hconverted, h⟩ := bind_eq_ok.mp h
  by_cases hrank : tensor.shape.rank = 2
  · rw [convertMatrix, if_neg (by omega)] at hconverted
    refine (converted_reaches htensor hread (mapError_eq_ok.mp hconverted) h hcounted).mono ?_
    exact fun q hq _ => hq
  · exact (appendTensor_reaches h hcounted).mono fun q _ hrank' => absurd hrank' hrank

/-- the head of an accepted manifest is a matrix, and a tied one is the embedding -/
structure HeadSound (m : ModelManifest) (io : ManifestModelIO) : Prop where
  rank : ∀ tensor, findTensor m.tensors io.lmHead.tensorName = some tensor → tensor.shape.rank = 2
  tied : io.tiedEmbeddings = true →
    io.tokenEmbeddingTensor = io.lmHead.tensorName ∧ io.lmHead.layout = .OutputInput

theorem packModelEnds_packs : Packs (packModelEnds answers files source) fun q io io' =>
    HeadSound source io → SameModelEnds ⟨files, source.tensors⟩ q.weights io io' := by
  intro io p io' p' h hcounted
  obtain ⟨embedding, hembedding, h⟩ := bind_eq_ok.mp h
  obtain ⟨finalNorm, hfinalNorm, h⟩ := bind_eq_ok.mp h
  obtain ⟨sourceHead, hsourceHead, h⟩ := bind_eq_ok.mp h
  obtain ⟨p₁, hpack₁, h⟩ := bind_eq_ok.mp h
  obtain ⟨p₂, hpack₂, h⟩ := bind_eq_ok.mp h
  have r₁ := packInputOutput_reaches (find_eq_ok.mp hembedding) hpack₁ hcounted
  have r₂ := packInputOutput_reaches (find_eq_ok.mp hfinalNorm) hpack₂ r₁.counted
  split at h
  · next htied =>
    obtain ⟨rfl, rfl⟩ := Prod.mk.inj (Except.ok.inj h)
    refine (r₁.andThen r₂).mono fun q hq hhead => ?_
    obtain ⟨hsame, hnorm⟩ := hq
    obtain ⟨hname, hlayout⟩ := hhead.tied htied
    obtain ⟨w, hw, hw'⟩ := hsame .OutputInput
    refine ⟨htied.symm, hsame .InputOutput, hnorm .InputOutput, w, w, ?_, hw', SameWeight.refl w⟩
    rw [← hname, hlayout]
    exact hw
  · next htied =>
    obtain ⟨p₃, hpack₃, h⟩ := bind_eq_ok.mp h
    obtain ⟨rfl, rfl⟩ := Prod.mk.inj (Except.ok.inj h)
    have hfound := find_eq_ok.mp hsourceHead
    have r₃ := packHead_reaches hfound hpack₃ r₂.counted
    refine ((r₁.andThen r₂).andThen r₃).mono fun q hq hhead => ?_
    obtain ⟨⟨hsame, hnorm⟩, hmatrix⟩ := hq
    exact
      { tied := (Bool.eq_false_of_not_eq_true htied).symm
        embedding := hsame .InputOutput
        finalNorm := hnorm .InputOutput
        head := hmatrix (hhead.rank sourceHead hfound) }

/-! ## experts -/

/-- the bytes of the expert stand in the finished file, from its offset on -/
structure Within (start : Nat) (w : ExpertWriting) (q : Packing) : Prop where
  output : ∃ before, before.length = start ∧ before ++ w.expertBytes <+: q.output.bytes
  tensors : w.tensors ⊆ q.tensors

/-- what was written and pushed for an expert stays -/
structure Extends (w w' : ExpertWriting) : Prop where
  expertBytes : w.expertBytes <+: w'.expertBytes
  tensors : w.tensors ⊆ w'.tensors
  projections : w.projections ⊆ w'.projections

/-- a part of what stands in the file stands in the file -/
theorem Within.of_extends {start : Nat} {w w' : ExpertWriting} {q : Packing} (h : Within start w' q)
    (hextends : Extends w w') : Within start w q := by
  obtain ⟨⟨before, hlength, hprefix⟩, hsub⟩ := h
  refine ⟨⟨before, hlength, ?_⟩, List.Subset.trans hextends.tensors hsub⟩
  exact ((List.prefix_append_right_inj before).mpr hextends.expertBytes).trans hprefix

/-- a record of the projection at its location -/
def Recorded (projections : List ProjectionRecord) (layerId expertId : UInt32) (type : ProjectionType)
    (location : ProjectionLocation) : Prop :=
  ∃ r ∈ projections, (r.layer_id = layerId ∧ r.expert_id = expertId ∧ r.projection_type = type) ∧
    r.offset = location.offset ∧ r.size = location.size

structure RecordedExpert (projections : List ProjectionRecord) (e : ManifestExpertMapping) : Prop where
  gate : Recorded projections e.layerId e.expertId .Gate e.gate
  up : Recorded projections e.layerId e.expertId .Up e.up
  down : Recorded projections e.layerId e.expertId .Down e.down

theorem Recorded.mono {projections projections' : List ProjectionRecord} {layerId expertId : UInt32}
    {type : ProjectionType} {location : ProjectionLocation}
    (h : Recorded projections layerId expertId type location) (hsub : projections ⊆ projections') :
    Recorded projections' layerId expertId type location := by
  obtain ⟨r, hr, hrecord⟩ := h
  exact ⟨r, hsub hr, hrecord⟩

theorem layout_encode {w w' : ConvertedWeight} {quantization : Option QuantizationParameters}
    (h : encode answers encoding w = .ok (w', quantization)) : w'.layout = w.layout := by
  unfold encode at h
  cases encoding with
  | Preserve =>
    obtain ⟨rfl, rfl⟩ := Prod.mk.inj (Except.ok.inj h)
    rfl
  | Int8 =>
    obtain ⟨⟨bytes, parameters⟩, -, h⟩ := bind_eq_ok.mp h
    obtain ⟨rfl, rfl⟩ := Prod.mk.inj (Except.ok.inj h)
    rfl

/-- what one projection adds, and what it is in the finished file -/
theorem packProjection_within {expert : ManifestExpertMapping} {start : UInt64}
    {location location' : ProjectionLocation} {type : ProjectionType} {role : String}
    {w w' : ExpertWriting}
    (h : packProjection answers encoding files source expert start location type role w =
      .ok (location', w')) :
    Extends w w' ∧ Recorded w'.projections expert.layerId expert.expertId type location' ∧
      ∀ q, Within start.toNat w' q → Named q.tensors →
        SameProjection answers encoding ⟨files, source.tensors⟩ q.weights location location' := by
  obtain ⟨tensor, htensor, h⟩ := bind_eq_ok.mp h
  obtain ⟨bytes, hread, h⟩ := bind_eq_ok.mp h
  obtain ⟨-, h⟩ := throwIf_bind_eq_ok.mp h
  obtain ⟨converted, hconverted, h⟩ := bind_eq_ok.mp h
  obtain ⟨⟨stored, quantization⟩, hencode, h⟩ := bind_eq_ok.mp h
  obtain ⟨hroom, h⟩ := throwIf_bind_eq_ok.mp h
  obtain ⟨dimensions, -, h⟩ := bind_eq_ok.mp h
  obtain ⟨rfl, rfl⟩ := Prod.mk.inj (Except.ok.inj h)
  have hconvert := mapError_eq_ok.mp hconverted
  have hlayout : stored.layout = .InputOutput :=
    (layout_encode hencode).trans (matches_convert hconvert).2.2
  refine ⟨⟨List.prefix_append _ _, List.subset_append_left _ _, List.subset_append_left _ _⟩,
    ⟨_, List.mem_append_right _ List.mem_cons_self, ⟨rfl, rfl, rfl⟩, rfl, rfl⟩, fun q hq hnamed => ?_⟩
  obtain ⟨⟨before, hlength, hprefix⟩, htensors⟩ := hq
  have hoffset : (start + UInt64.ofNat w.expertBytes.length).toNat =
      (before ++ w.expertBytes).length := by
    rw [toNat_advance (Nat.not_lt.mp hroom), List.length_append, hlength]
  rw [← List.append_assoc] at hprefix
  have hstores : Stores q (packedTensor (expertTensorName expert.layerId expert.expertId role)
      (start + UInt64.ofNat w.expertBytes.length) stored quantization) stored :=
    { mem := htensors (List.mem_append_right _ List.mem_cons_self)
      file := rfl
      dtype := rfl
      shape := rfl
      bytes := read_of_prefix hprefix hoffset rfl }
  refine ⟨_, converted, stored, quantization, at_eq (find_eq_ok.mp htensor) hread,
    sameWeight_convert hconvert, hencode, ?_, ?_⟩
  · refine (hstores.at_eq hnamed .InputOutput).trans ?_
    rw [← hlayout]
  · exact congrArg (Option.map ManifestTensor.quantization) (findTensor_of_mem hnamed hstores.mem)

theorem packExpert_packs : Packs (packExpert answers encoding files source) fun q e e' =>
    SameExpert answers encoding ⟨files, source.tensors⟩ q.weights e e' ∧
      RecordedExpert q.projections e' := by
  intro expert p expert' p' h hcounted
  obtain ⟨start, hstart, h⟩ := bind_eq_ok.mp h
  obtain ⟨gateTensor, -, h⟩ := bind_eq_ok.mp h
  obtain ⟨upTensor, -, h⟩ := bind_eq_ok.mp h
  obtain ⟨downTensor, -, h⟩ := bind_eq_ok.mp h
  obtain ⟨-, h⟩ := throwIf_bind_eq_ok.mp h
  obtain ⟨⟨gate, w₁⟩, hgate, h⟩ := bind_eq_ok.mp h
  obtain ⟨⟨up, w₂⟩, hup, h⟩ := bind_eq_ok.mp h
  obtain ⟨⟨down, w₃⟩, hdown, h⟩ := bind_eq_ok.mp h
  obtain ⟨-, h⟩ := throwIf_bind_eq_ok.mp h
  obtain ⟨output, hwrite, h⟩ := bind_eq_ok.mp h
  obtain ⟨hrange, h⟩ := throwIf_bind_eq_ok.mp h
  obtain ⟨rfl, rfl⟩ := Prod.mk.inj (Except.ok.inj h)
  obtain ⟨hextends₁, hrecord₁, hsame₁⟩ := packProjection_within hgate
  obtain ⟨hextends₂, hrecord₂, hsame₂⟩ := packProjection_within hup
  obtain ⟨hextends₃, hrecord₃, hsame₃⟩ := packProjection_within hdown
  have hstart' := alignUp_eq (mapError_eq_ok.mp hstart)
  have hle : p.cursor.toNat ≤ start.toNat := by omega
  have hbytes := write_eq_ok hwrite
  rw [← List.append_assoc] at hbytes
  -- the padding ends where the expert starts
  have hbefore : (p.output.bytes ++ zeroPage (start - p.cursor)).length = start.toNat := by
    rw [List.length_append, zeroPage, List.length_replicate,
      UInt64.toNat_sub_of_le _ _ (UInt64.le_iff_toNat_le.mpr hle), hcounted]
    omega
  have hlength : w₃.expertBytes.length < 2 ^ 64 := by
    have hsmall := output.small
    rw [hbytes, List.length_append] at hsmall
    omega
  have hsize : (UInt64.ofNat w₃.expertBytes.length).toNat = w₃.expertBytes.length :=
    UInt64.toNat_ofNat_of_lt' hlength
  have hcounted' : output.bytes.length = (start + UInt64.ofNat w₃.expertBytes.length).toNat := by
    have hfits := UInt64.le_iff_toNat_le.mp (UInt64.not_lt.mp hrange)
    rw [toNat_room, hsize] at hfits
    rw [UInt64.toNat_add, hsize, Nat.mod_eq_of_lt (by omega), hbytes, List.length_append, hbefore]
  refine ⟨hcounted', ⟨?_, ?_, ?_⟩, fun q hq hnamed => ⟨?_, ?_⟩⟩
  · show p.output.bytes <+: output.bytes
    rw [hbytes, List.append_assoc]
    exact List.prefix_append _ _
  · exact List.Subset.trans hextends₁.tensors (List.Subset.trans hextends₂.tensors hextends₃.tensors)
  · exact List.Subset.trans hextends₁.projections
      (List.Subset.trans hextends₂.projections hextends₃.projections)
  · have hwithin₃ : Within start.toNat w₃ q := ⟨⟨_, hbefore, hbytes ▸ hq.output⟩, hq.tensors⟩
    have hwithin₂ := hwithin₃.of_extends hextends₃
    have hwithin₁ := hwithin₂.of_extends hextends₂
    exact ⟨rfl, rfl, hsame₁ q hwithin₁ hnamed, hsame₂ q hwithin₂ hnamed, hsame₃ q hwithin₃ hnamed⟩
  · have hsub₂ := List.Subset.trans hextends₃.projections hq.projections
    have hsub₁ := List.Subset.trans hextends₂.projections hsub₂
    exact ⟨hrecord₁.mono hsub₁, hrecord₂.mono hsub₂, hrecord₃.mono hq.projections⟩

/-! ## accepted heads -/

section
open Lib.Fallible (Returns returns_orThrow returns_throwIf wp_mono)

theorem returns_lmHeadShape {layout : TensorLayout} {embeddingShape : Shape}
    {runtime : Models.Runtime.ModelArchitecture} (h : embeddingShape.rank = 2) :
    Returns (lmHeadShape layout embeddingShape runtime) fun shape => shape.rank = 2 := by
  cases layout with
  | InputOutput => exact (returns_ofDimensions _).mono fun shape hshape => congrArg List.length hshape
  | OutputInput => exact Returns.pure h

theorem returns_validateModelEnds {byName : ByName} (hseen : TensorsSeen source.tensors byName)
    (io : ManifestModelIO) : Returns (validateModelEnds source byName io) fun _ => HeadSound source io := by
  refine (returns_orThrow _ _).bind fun runtime _ => Returns.guard fun _ => Returns.guard fun _ => ?_
  refine (returns_ofDimensions _).bind fun embeddingShape hembedding => ?_
  refine (returns_lmHeadShape (congrArg List.length hembedding)).bind fun headShape hhead => ?_
  refine Returns.then fun _ => Returns.then fun _ => (returns_orThrow _ _).bind fun lmHead hlookup => ?_
  refine Returns.then fun _ => Returns.guard fun hshapes => (returns_throwIf _ _).mono fun _ htied => ?_
  push Not at hshapes htied
  obtain ⟨hmem, hname⟩ := hseen.found _ _ hlookup
  refine ⟨fun tensor htensor => ?_, htied⟩
  have hfound := findTensor_of_mem hseen.names hmem
  rw [hname, htensor] at hfound
  rw [Option.some.inj hfound, hshapes.2.2]
  exact hhead

theorem returns_validate_head (source : ModelManifest) : Returns source.validate fun _ =>
    ∀ io, source.modelIO = some io → HeadSound source io := by
  refine Returns.guard fun _ => Returns.guard fun _ => Returns.guard fun _ => Returns.then fun _ => ?_
  refine Returns.guard fun _ => Returns.guard fun _ => Returns.then fun _ => Returns.guard fun _ => ?_
  refine (returns_validateTensors source).bind fun byName htensors => ?_
  refine Returns.then fun _ => Returns.then fun _ => Returns.then fun _ => ?_
  cases source.modelIO with
  | none =>
    refine Returns.pure fun io h => ?_
    cases h
  | some io =>
    refine (returns_validateModelEnds htensors io).mono fun _ h io' hio => ?_
    obtain rfl := Option.some.inj hio
    exact h

end

/-! ## the packer -/

theorem packWeights_same {packed : ModelManifest}
    (h : packWeights answers encoding files source = .ok (packed, p))
    (hheads : ∀ io, source.modelIO = some io → HeadSound source io) :
    packed.tensors = p.tensors ∧ (Named p.tensors →
      SameModel answers encoding files (dataFiles p.output) source packed ∧
        ∀ e ∈ packed.experts, RecordedExpert p.projections e) := by
  obtain ⟨⟨experts, p₁⟩, hexperts, h⟩ := bind_eq_ok.mp h
  obtain ⟨⟨routers, p₂⟩, hrouters, h⟩ := bind_eq_ok.mp h
  obtain ⟨⟨layers, p₃⟩, hlayers, h⟩ := bind_eq_ok.mp h
  obtain ⟨⟨io', p₄⟩, hmodelIO, h⟩ := bind_eq_ok.mp h
  obtain ⟨rfl, rfl⟩ := Prod.mk.inj (Except.ok.inj h)
  have hempty : Counted {} := rfl
  have r₁ := each_packs packExpert_packs _ _ _ _ hexperts hempty
  have r₂ := each_packs packRouter_packs _ _ _ _ hrouters r₁.counted
  have r₃ := each_packs (packLayer_packs source.router.layout _ _) _ _ _ _ hlayers r₂.counted
  have r₄ := eachOption_packs packModelEnds_packs _ _ _ _ hmodelIO r₃.counted
  have hall := ((r₁.andThen r₂).andThen r₃).andThen r₄
  refine ⟨rfl, fun hnamed => ?_⟩
  obtain ⟨⟨⟨hexperts', hrouters'⟩, hlayers'⟩, hmodelIO'⟩ := hall.later p₄ (Grows.refl p₄) hnamed
  constructor
  · exact
      { experts := hexperts'.imp fun _ _ hsame => hsame.1
        routers := hrouters'
        layers := hlayers'.imp fun _ _ hsame => hsame hrouters'
        modelIO := by
          cases hio : source.modelIO with
          | none =>
            rw [hio] at hmodelIO'
            cases hmodelIO'
            exact .none
          | some io =>
            rw [hio] at hmodelIO'
            cases hmodelIO' with
            | some hsame => exact .some (hsame (hheads io hio)) }
  · intro e' he'
    obtain ⟨e, -, -, hrecorded⟩ := (mem_of_forall₂ hexperts').2 e' he'
    exact hrecorded

end

/-! ## the index -/

theorem forM_eq_ok {α ε : Type} {f : α → Except ε Unit} {as : List α} {u : Unit}
    (h : as.forM f = .ok u) : ∀ a ∈ as, ∃ u, f a = .ok u := by
  induction as with
  | nil =>
    intro a ha
    cases ha
  | cons a as ih =>
    have h : (f a >>= fun _ => as.forM f) = .ok u := h
    obtain ⟨u', hfirst, hrest⟩ := bind_eq_ok.mp h
    intro a' ha'
    rcases List.mem_cons.mp ha' with rfl | ha'
    · exact ⟨u', hfirst⟩
    · exact ih hrest a' ha'

/-- what was saved is what the store is opened with -/
theorem openStore_saved {index : ExpertIndex} {packed : PackedModel} {s : ExpertStore}
    (hindex : packed.index.bytes = index.save) (h : openStore packed.directory = .ok s) :
    s.index = index ∧ s.data = packed.data := by
  have hload : (load "experts.index" packed.index).1 = .ok index := by
    refine (load_iff _ _ index).mpr ⟨_, ?_, hindex.trans (save_eq index)⟩
    by_cases hprojections : index.projections = []
    · rw [if_pos hprojections]
      exact .inr ⟨rfl, hprojections⟩
    · rw [if_neg hprojections]
      exact .inl rfl
  obtain ⟨indexFile, hfile, h⟩ := bind_eq_ok.mp h
  obtain rfl := Except.ok.inj hfile
  obtain ⟨i, hi, h⟩ := bind_eq_ok.mp h
  obtain rfl := Except.ok.inj (hload.symm.trans hi)
  obtain ⟨data, hdata, h⟩ := bind_eq_ok.mp h
  obtain rfl := Except.ok.inj hdata
  obtain ⟨metadataJson, -, h⟩ := bind_eq_ok.mp h
  unfold ExpertStore.make at h
  split at h
  · obtain rfl := Except.ok.inj h
    exact ⟨rfl, rfl⟩
  · cases h

/-- a recorded projection that passes its checks is mapped where it is recorded -/
theorem mappedProjection_of_recorded {s : ExpertStore} {layerId expertId : UInt32}
    {type : ProjectionType} {location : ProjectionLocation}
    (h : Recorded s.index.projections layerId expertId type location)
    (hchecked : ∀ r ∈ s.index.projections, ∃ span,
      s.mappedProjection r.layer_id r.expert_id r.projection_type true = .ok span) :
    s.mappedProjection layerId expertId type true =
      .ok ⟨location.offset.toNat, location.size.toNat⟩ := by
  obtain ⟨r, hr, ⟨rfl, rfl, rfl⟩, hoffset, hsize⟩ := h
  obtain ⟨span, hspan⟩ := hchecked r hr
  have hfind := ((indexSound s.index).findProjection _ _ _ r).mpr ⟨hr, rfl, rfl, rfl⟩
  rw [hspan]
  unfold ExpertStore.mappedProjection at hspan
  rw [hfind] at hspan
  obtain ⟨span', hview, hspan⟩ := bind_eq_ok.mp hspan
  unfold ExpertStore.checked at hspan
  unfold view at hview
  split at hview
  · cases hview
  split at hspan
  · cases hspan
  rw [← Except.ok.inj hspan, ← Except.ok.inj hview, hoffset, hsize]

/-- the verification opens the store, and checks every projection -/
theorem verify_eq_ok {index : ExpertIndex} {packed : PackedModel} {u : Unit}
    (hindex : packed.index.bytes = index.save) (h : verify packed.directory = .ok u) :
    ∃ s, openStore packed.directory = .ok s ∧ s.index = index ∧ s.data = packed.data ∧
      ∀ r ∈ index.projections, ∃ span,
        s.mappedProjection r.layer_id r.expert_id r.projection_type true = .ok span := by
  obtain ⟨s, hs, h⟩ := bind_eq_ok.mp h
  have hs := mapError_eq_ok.mp hs
  obtain ⟨hsame, hdata⟩ := openStore_saved hindex hs
  obtain ⟨_, -, h⟩ := bind_eq_ok.mp h
  refine ⟨s, hs, hsame, hdata, fun r hr => ?_⟩
  obtain ⟨_, hr⟩ := forM_eq_ok h r (hsame ▸ hr)
  obtain ⟨span, hspan, -⟩ := bind_eq_ok.mp hr
  exact ⟨span, mapError_eq_ok.mp hspan⟩

theorem saveIndex_eq_ok {answers : PackAnswers} {index : ExpertIndex} {file : File}
    (h : saveIndex answers index = .ok file) : file.bytes = index.save := by
  obtain ⟨_, -, h⟩ := bind_eq_ok.mp h
  split at h
  · next happend =>
    obtain rfl := Except.ok.inj h
    exact append_bytes happend
  · cases h

theorem projections_of_make {experts : List Storage.ExpertRecord} {projections : List ProjectionRecord}
    {index : ExpertIndex} (h : ((ExpertIndex.make experts projections).exec true).1 = .ok index) :
    index.projections = projections :=
  ((wp_make.2 index).mp h).2

/-- What was packed is accepted and has the weights of the source, and the store that is opened on it
maps every projection to where the manifest has it. -/
theorem pack_preserves (answers : PackAnswers) (encoding : ExpertStorageEncoding) (files : Files)
    (source : ModelManifest) (packed : PackedModel)
    (h : pack answers encoding files source = .ok packed) :
    packed.manifest.Accepted ∧
      SameModel answers encoding files (dataFiles packed.data) source packed.manifest ∧
      ∃ s, openStore packed.directory = .ok s ∧ s.data = packed.data ∧
        ∀ e ∈ packed.manifest.experts, MappedExpert s e := by
  obtain ⟨_, hsource, h⟩ := bind_eq_ok.mp h
  obtain ⟨_, -, h⟩ := bind_eq_ok.mp h
  obtain ⟨-, h⟩ := throwIf_bind_eq_ok.mp h
  obtain ⟨-, h⟩ := throwIf_bind_eq_ok.mp h
  obtain ⟨-, h⟩ := throwIf_bind_eq_ok.mp h
  obtain ⟨_, -, h⟩ := bind_eq_ok.mp h
  obtain ⟨⟨manifest, p⟩, hweights, h⟩ := bind_eq_ok.mp h
  obtain ⟨-, h⟩ := throwIf_bind_eq_ok.mp h
  obtain ⟨index, hindex, h⟩ := bind_eq_ok.mp h
  obtain ⟨indexFile, hsaved, h⟩ := bind_eq_ok.mp h
  obtain ⟨_, haccepted, h⟩ := bind_eq_ok.mp h
  obtain ⟨manifestFile, -, h⟩ := bind_eq_ok.mp h
  obtain ⟨_, hverify, h⟩ := bind_eq_ok.mp h
  obtain ⟨-, h⟩ := throwIf_bind_eq_ok.mp h
  obtain rfl := (pure_eq_ok.mp h).symm
  have haccepted : manifest.Accepted := mapError_eq_ok.mp haccepted
  have hheads := returns_validate_head source true () (mapError_eq_ok.mp hsource)
  obtain ⟨htensors, hsame⟩ := packWeights_same hweights hheads
  have hnamed : Named p.tensors := htensors ▸ (validate_sound manifest haccepted).names
  obtain ⟨hmodel, hrecorded⟩ := hsame hnamed
  have hprojections := projections_of_make (mapError_eq_ok.mp hindex)
  obtain ⟨s, hs, hsindex, hdata, hchecked⟩ := verify_eq_ok (saveIndex_eq_ok hsaved) hverify
  refine ⟨haccepted, hmodel, s, hs, hdata, fun e he => ?_⟩
  rw [← hprojections] at hrecorded
  subst hsindex
  obtain ⟨hgate, hup, hdown⟩ := hrecorded e he
  exact ⟨mappedProjection_of_recorded hgate hchecked, mappedProjection_of_recorded hup hchecked,
    mappedProjection_of_recorded hdown hchecked⟩

/-! ## a small model -/

theorem built_square : ((contiguous [2, 2]).exec true).1 = .ok ⟨[2, 2], [2, 1], 4, 4⟩ ∨
    ((strided [2, 2] [2, 1]).exec true).1 = .ok ⟨[2, 2], [2, 1], 4, 4⟩ := .inl rfl

theorem built_vector : ((contiguous [2]).exec true).1 = .ok ⟨[2], [1], 2, 2⟩ ∨
    ((strided [2] [1]).exec true).1 = .ok ⟨[2], [1], 2, 2⟩ := .inl rfl

theorem built_router : ((contiguous [1, 2]).exec true).1 = .ok ⟨[1, 2], [2, 1], 2, 2⟩ ∨
    ((strided [1, 2] [2, 1]).exec true).1 = .ok ⟨[1, 2], [2, 1], 2, 2⟩ := .inl rfl

def squareShape : Shape := ⟨⟨[2, 2], [2, 1], 4, 4⟩, built_square⟩

def squareLocation : ProjectionLocation := { tensorName := ascii "w", size := 8, shape := squareShape }

/-- one layer of one expert; each of its matrices is the tensor `w`, stored by the outputs -/
def smallModel : ModelManifest where
  modelName := ascii "m"
  sourceArchitecture := ascii "a"
  config :=
    { modelName := ascii "m", layerCount := 1, expertCount := 1, hiddenSize := 2, intermediateSize := 2 }
  runtimeArchitecture := some
    { layerCount := 1, hiddenDimension := 2, headDimension := 2, projectionHeadDimension := 2
      expertCount := 1, vocabularySize := 2, tiedEmbeddings := true }
  router := { config := { expertCount := 1 }, tensors := [{ layerId := 0, tensorName := ascii "r" }] }
  tensors :=
    [{ name := ascii "w", sourceFile := ascii "f", size := 8, dtype := .FP16, shape := squareShape },
     { name := ascii "n", sourceFile := ascii "f", offset := 8, size := 4, dtype := .FP16
       shape := ⟨⟨[2], [1], 2, 2⟩, built_vector⟩ },
     { name := ascii "r", sourceFile := ascii "f", offset := 12, size := 4, dtype := .FP16
       shape := ⟨⟨[1, 2], [2, 1], 2, 2⟩, built_router⟩ }]
  experts := [{ gate := squareLocation, up := squareLocation, down := squareLocation }]
  layers :=
    [{ queryProjection := { tensorName := ascii "w" }, keyProjection := { tensorName := ascii "w" }
       valueProjection := { tensorName := ascii "w" }, outputProjection := { tensorName := ascii "w" }
       inputNormTensor := ascii "n", postAttentionNormTensor := ascii "n", routerTensor := ascii "r" }]
  modelIO := some
    { tokenEmbeddingTensor := ascii "w", finalNormTensor := ascii "n"
      lmHead := { tensorName := ascii "w" }, tiedEmbeddings := true }

/-- the weights 0, 1, -2 and 127 of `w`, in half precision, before the others -/
def smallFile : File := ⟨[0, 0, 0, 0x3c, 0, 0xc0, 0xf0, 0x57, 9, 10, 11, 12, 13, 14, 15, 16], by decide⟩

def smallFiles : Files := fun name => if name = ascii "f" then some smallFile else none

/-- the quantizer on the weights of `w`, stored by the inputs -/
def quantizeSmall (bytes : List UInt8) (dtype : DType) :
    Except StdError (List UInt8 × QuantizationParameters) :=
  if bytes = [0, 0, 0, 0xc0, 0, 0x3c, 0xf0, 0x57] ∧ dtype = .FP16 then
    .ok ([0, 0xfe, 1, 0x7f], {})
  else .error (.invalid_argument "INT8 quantization source cannot be empty")

example : (Tensor.Quantization.quantizeInt8 [.finite (0 : ℚ), .finite (-2), .finite 1, .finite 127]).map
    (fun q => (q.bytes, q.parameters)) = .ok ([0, 0xfe, 1, 0x7f], { scale := 1 }) := by
  decide +kernel

def smallAnswers : PackAnswers where
  savesManifest _ := .ok ⟨ascii "m", by decide⟩
  quantizeInt8 := quantizeSmall

theorem pack_small (encoding : ExpertStorageEncoding) :
    ∃ packed, pack smallAnswers encoding smallFiles smallModel = .ok packed := by
  have hsome : (pack smallAnswers encoding smallFiles smallModel).toOption.isSome = true := by
    cases encoding <;> decide +kernel
  cases hpack : pack smallAnswers encoding smallFiles smallModel with
  | ok packed => exact ⟨packed, rfl⟩
  | error e =>
    rw [hpack] at hsome
    cases hsome

/-- as it is, and in INT8 -/
theorem pack_preserves_small :
    (∃ packed, pack smallAnswers .Preserve smallFiles smallModel = .ok packed ∧
      packed.manifest.Accepted ∧
      SameModel smallAnswers .Preserve smallFiles (dataFiles packed.data) smallModel packed.manifest ∧
      ∃ s, openStore packed.directory = .ok s ∧ s.data = packed.data ∧
        ∀ e ∈ packed.manifest.experts, MappedExpert s e) ∧
    ∃ packed, pack smallAnswers .Int8 smallFiles smallModel = .ok packed ∧
      packed.manifest.Accepted ∧
      SameModel smallAnswers .Int8 smallFiles (dataFiles packed.data) smallModel packed.manifest ∧
      ∃ s, openStore packed.directory = .ok s ∧ s.data = packed.data ∧
        ∀ e ∈ packed.manifest.experts, MappedExpert s e := by
  obtain ⟨packed, h⟩ := pack_small .Preserve
  obtain ⟨packed', h'⟩ := pack_small .Int8
  exact ⟨⟨packed, h, pack_preserves smallAnswers .Preserve smallFiles smallModel packed h⟩,
    packed', h', pack_preserves smallAnswers .Int8 smallFiles smallModel packed' h'⟩

end HyperMoE.Conversion
