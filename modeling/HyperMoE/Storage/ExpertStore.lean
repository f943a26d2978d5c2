import HyperMoE.Storage.Soundness

/-!
# The expert store

`ExpertStore.cpp` and `MappedFile.cpp`: an index over a mapped data file.

* `view`                              a span of the mapping, after its bounds check;
* `ExpertStore`                       index, mapping and metadata, as the constructor accepts them;
* `mappedExpert`, `mappedProjection`  the spans of the indexed items;
* `index_sound`                       the look-ups find what is indexed, and nothing that is indexed
                                      leaves the data file.
-/

namespace HyperMoE.Storage

open Lib Lib.Fallible Tensor

/-! ## spans of a mapped file -/

/-- bytes of the mapping, by their addresses -/
structure Span where
  start : Nat
  length : Nat
  deriving DecidableEq, Repr

/-- every byte of the span is a byte of the file -/
def Span.Inside (s : Span) (f : File) : Prop := s.start + s.length ≤ f.bytes.length

def File.read (f : File) (s : Span) : List UInt8 := (f.bytes.drop s.start).take s.length

/-- the range leaves a file of the size; nothing wraps here -/
def outOfBounds (size offset length : UInt64) : Prop := offset > size ∨ length > size - offset

instance (size offset length : UInt64) : Decidable (outOfBounds size offset length) := by
  unfold outOfBounds
  infer_instance

def view (f : File) (offset length : UInt64) : Except StorageError Span :=
  if outOfBounds f.size offset length then .error ⟨"mapped file range is out of bounds"⟩
  else .ok ⟨offset.toNat, length.toNat⟩

/-! ## checksums -/

/-- one bit of the polynomial division -/
def crcBit (crc : UInt32) : UInt32 := (crc >>> 1) ^^^ (0xedb88320 &&& (0 - (crc &&& 1)))

def crcByte (crc : UInt32) (byte : UInt8) : UInt32 := crcBit^[8] (crc ^^^ byte.toUInt32)

def crc32 (bytes : List UInt8) : UInt32 := ~~~(bytes.foldl crcByte 0xffffffff)

/-! ## the store -/

/-- the constructor, after the index was loaded -/
def checkStore (dataPath : String) (index : ExpertIndex) (data : File) (metadataJson : List UInt8) :
    Except StorageError Unit :=
  if data.bytes = [] then .error ⟨"invalid mapped file size: " ++ dataPath⟩
  else if metadataJson = [] then .error ⟨"model metadata manifest is empty"⟩
  else if ∃ record ∈ index.records, outOfBounds data.size record.offset record.size
    then .error ⟨"expert index references data outside experts.bin"⟩
  else .ok ()

structure ExpertStore where
  dataPath : String
  index : ExpertIndex
  data : File
  metadataJson : List UInt8
  accepted : checkStore dataPath index data metadataJson = .ok ()

namespace ExpertStore

def checked (bytes : List UInt8) (checksum : UInt32) (validateChecksum : Bool) (what : String)
    (span : Span) : Except StorageError Span :=
  if validateChecksum = true ∧ crc32 bytes ≠ checksum then .error ⟨what⟩ else .ok span

def mappedExpert (s : ExpertStore) (layerId expertId : UInt32) (validateChecksum : Bool) :
    Except StorageError Span :=
  match s.index.find layerId expertId with
  | none => .error ⟨"expert is not present in the index"⟩
  | some record => do
    let span ← view s.data record.offset record.size
    checked (s.data.read span) record.checksum validateChecksum
      "expert checksum mismatch: data is corrupted" span

def mappedProjection (s : ExpertStore) (layerId expertId : UInt32) (type : ProjectionType)
    (validateChecksum : Bool) : Except StorageError Span :=
  match s.index.findProjection layerId expertId type with
  | none => .error ⟨"expert projection is not present in the index"⟩
  | some record => do
    let span ← view s.data record.offset record.size
    checked (s.data.read span) record.checksum validateChecksum
      "expert projection checksum mismatch: data is corrupted" span

end ExpertStore

/-! ## bounds -/

theorem File.toNat_size (f : File) : f.size.toNat = f.bytes.length :=
  UInt64.toNat_ofNat_of_lt' (Nat.lt_trans f.small (by decide))

theorem not_outOfBounds {f : File} {offset length : UInt64} :
    ¬ outOfBounds f.size offset length ↔ offset.toNat + length.toNat ≤ f.bytes.length := by
  unfold outOfBounds
  rw [not_or, UInt64.not_lt, UInt64.not_lt, UInt64.le_iff_toNat_le, ← f.toNat_size]
  constructor
  · rintro ⟨hoffset, hlength⟩
    rw [UInt64.le_iff_toNat_le, UInt64.toNat_sub_of_le _ _ (UInt64.le_iff_toNat_le.mpr hoffset)]
      at hlength
    omega
  · intro h
    have hoffset : offset.toNat ≤ f.size.toNat := by omega
    refine ⟨hoffset, ?_⟩
    rw [UInt64.le_iff_toNat_le, UInt64.toNat_sub_of_le _ _ (UInt64.le_iff_toNat_le.mpr hoffset)]
    omega

theorem view_inside {f : File} {offset length : UInt64} {span : Span}
    (h : view f offset length = .ok span) : span.Inside f := by
  unfold view at h
  split at h
  · cases h
  next hin =>
  obtain rfl := Except.ok.inj h
  exact not_outOfBounds.mp hin

theorem view_of_le {f : File} {offset length : UInt64}
    (h : offset.toNat + length.toNat ≤ f.bytes.length) :
    view f offset length = .ok ⟨offset.toNat, length.toNat⟩ :=
  if_neg (not_outOfBounds.mpr h)

namespace ExpertStore

/-- the span that was checked is the one that was asked for -/
theorem checked_eq {bytes : List UInt8} {checksum : UInt32} {validateChecksum : Bool} {what : String}
    {span span' : Span} (h : checked bytes checksum validateChecksum what span = .ok span') :
    span' = span := by
  unfold checked at h
  split at h
  · cases h
  · exact (Except.ok.inj h).symm

theorem record_inside (s : ExpertStore) {r : ExpertRecord} (hr : r ∈ s.index.records) :
    r.offset.toNat + r.size.toNat ≤ s.data.bytes.length := by
  have h := s.accepted
  unfold checkStore at h
  split at h
  · cases h
  split at h
  · cases h
  split at h
  · cases h
  next hin => exact not_outOfBounds.mp fun hout => hin ⟨r, hr, hout⟩

end ExpertStore

/-! ## soundness -/

/-- what every index that the constructor accepts is like -/
structure IndexSound (i : ExpertIndex) : Prop where
  unique : (i.records.map fun r => (r.layer_id, r.expert_id)).Nodup
  find : ∀ l e r, i.find l e = some r ↔ r ∈ i.records ∧ r.layer_id = l ∧ r.expert_id = e
  uniqueProjection :
    (i.projections.map fun p => (p.layer_id, p.expert_id, p.projection_type)).Nodup
  findProjection : ∀ l e t p, i.findProjection l e t = some p ↔
    p ∈ i.projections ∧ p.layer_id = l ∧ p.expert_id = e ∧ p.projection_type = t
  /-- a projection has bytes of its expert, as many as its dimensions and its type say -/
  projection : ∀ p ∈ i.projections, ∃ r, i.find p.layer_id p.expert_id = some r ∧
    r.offset.toNat ≤ p.offset.toNat ∧
    p.offset.toNat + p.size.toNat ≤ r.offset.toNat + r.size.toNat ∧
    ∃ dtype, DType.ofCode p.dtype = some dtype ∧ p.rank.toNat ≤ 4 ∧ p.size.toNat =
      ((p.shape.toList.take p.rank.toNat).map UInt64.toNat).prod * dtype.sizeOf.toNat
  bounded : (∀ r ∈ i.records, r.offset.toNat + r.size.toNat ≤ 2 ^ 64 - 1) ∧
    ∀ p ∈ i.projections, p.offset.toNat + p.size.toNat ≤ 2 ^ 64 - 1

/-- what is mapped for an indexed item are its bytes, which are bytes of the data file -/
structure StoreSound (s : ExpertStore) : Prop where
  expert : ∀ l e r, s.index.find l e = some r →
    s.mappedExpert l e false = .ok ⟨r.offset.toNat, r.size.toNat⟩
  projection : ∀ l e t p, s.index.findProjection l e t = some p →
    s.mappedProjection l e t false = .ok ⟨p.offset.toNat, p.size.toNat⟩
  expertInside : ∀ l e v span, s.mappedExpert l e v = .ok span → span.Inside s.data
  projectionInside : ∀ l e t v span, s.mappedProjection l e t v = .ok span → span.Inside s.data

/-- two places with one key are one place -/
theorem nodup_of_positions {α β : Type} {as : List α} {f : α → β}
    (h : ∀ (i j : Nat) (a b : α), as[i]? = some a → as[j]? = some b → f a = f b → i = j) :
    (as.map f).Nodup := by
  rw [List.nodup_iff_injective_get]
  intro i j hij
  simp only [List.get_eq_getElem, List.getElem_map] at hij
  exact Fin.ext (h i j _ _ (List.getElem?_eq_getElem (by simpa using i.2))
    (List.getElem?_eq_getElem (by simpa using j.2)) hij)

theorem findProjection_iff (i : ExpertIndex) (l e : UInt32) (t : ProjectionType)
    (p : ProjectionRecord) : i.findProjection l e t = some p ↔
      p ∈ i.projections ∧ p.layer_id = l ∧ p.expert_id = e ∧ p.projection_type = t := by
  have hs := i.seen.2
  unfold ExpertIndex.findProjection
  constructor
  · intro h
    split at h
    · cases h
    next found hfound =>
    split at h
    · cases h
    obtain ⟨j, hj, hp⟩ := Option.bind_eq_some_iff.mp h
    obtain ⟨p', hp', hk, ht⟩ := (hs.found _ t j).mp ⟨found, hfound, hj⟩
    obtain rfl := Option.some.inj (hp'.symm.trans hp)
    exact ⟨List.mem_of_getElem? hp, (key_inj.mp hk).1, (key_inj.mp hk).2, ht⟩
  · rintro ⟨hp, rfl, rfl, rfl⟩
    obtain ⟨j, hj⟩ := List.mem_iff_getElem?.mp hp
    obtain ⟨found, hfound, hfj⟩ := (hs.found p.key p.projection_type j).mpr ⟨p, hj, rfl, rfl⟩
    have hlt : ¬ p.projection_type ≥ 3 := by
      intro hge
      have := UInt32.le_iff_toNat_le.mp hge
      exact absurd (hs.valid p hp).type (Nat.not_lt.mpr this)
    replace hfound : i.lookups.projectionLookup.lookup (key p.layer_id p.expert_id) = some found :=
      hfound
    simp only [hfound, if_neg hlt, hfj]
    exact hj

theorem indexSound (i : ExpertIndex) : IndexSound i := by
  obtain ⟨hr, hp⟩ := i.seen
  refine ⟨nodup_of_positions fun j j' a b hj hj' hab => ?_, fun l e r => hr.find,
    nodup_of_positions fun j j' a b hj hj' hab => ?_, findProjection_iff i, fun p hpm => ?_,
    fun r hrm => Nat.le_sub_one_of_lt (hr.valid r hrm).bounded, fun p hpm => ?_⟩
  · have hab' : a.key = b.key := key_inj.mpr (Prod.ext_iff.mp hab)
    have h := (hr.found a.key j).mpr ⟨a, hj, rfl⟩
    have h' := (hr.found a.key j').mpr ⟨b, hj', hab'.symm⟩
    exact Option.some.inj (h.symm.trans h')
  · obtain ⟨hl, he, ht⟩ : a.layer_id = b.layer_id ∧ a.expert_id = b.expert_id ∧
        a.projection_type = b.projection_type := by simpa using hab
    have hab' : a.key = b.key := key_inj.mpr ⟨hl, he⟩
    obtain ⟨found, hf, hj⟩ := (hp.found a.key a.projection_type j).mpr ⟨a, hj, rfl, rfl⟩
    obtain ⟨found', hf', hj'⟩ :=
      (hp.found a.key a.projection_type j').mpr ⟨b, hj', hab'.symm, ht.symm⟩
    obtain rfl := Option.some.inj (hf.symm.trans hf')
    exact Option.some.inj (hj.symm.trans hj')
  · have hv := hp.valid p hpm
    obtain ⟨r, hrm, hl, he, hstart, hend⟩ := hv.inside
    obtain ⟨dtype, hd, hsize⟩ := hv.size
    exact ⟨r, hr.find.mpr ⟨hrm, hl, he⟩, hstart, hend, dtype, hd, hv.rank, hsize⟩
  · obtain ⟨r, hrm, -, -, -, hend⟩ := (hp.valid p hpm).inside
    have := (hr.valid r hrm).bounded
    omega

theorem storeSound (s : ExpertStore) : StoreSound s := by
  have hi := indexSound s.index
  have hprojection : ∀ {l e t p}, s.index.findProjection l e t = some p →
      p.offset.toNat + p.size.toNat ≤ s.data.bytes.length := by
    intro l e t p h
    obtain ⟨hpm, -⟩ := (hi.findProjection l e t p).mp h
    obtain ⟨r, hr, -, hend, -⟩ := hi.projection p hpm
    exact Nat.le_trans hend (s.record_inside ((hi.find _ _ r).mp hr).1)
  refine ⟨fun l e r h => ?_, fun l e t p h => ?_, fun l e v span h => ?_, fun l e t v span h => ?_⟩
  · unfold ExpertStore.mappedExpert
    simp only [h, view_of_le (s.record_inside ((hi.find l e r).mp h).1)]
    rfl
  · unfold ExpertStore.mappedProjection
    simp only [h, view_of_le (hprojection h)]
    rfl
  · unfold ExpertStore.mappedExpert at h
    split at h
    · cases h
    next r hr =>
    cases hv : view s.data r.offset r.size with
    | error e => rw [hv] at h; cases h
    | ok span' =>
      rw [hv] at h
      obtain rfl := ExpertStore.checked_eq h
      exact view_inside hv
  · unfold ExpertStore.mappedProjection at h
    split at h
    · cases h
    next p hp =>
    cases hv : view s.data p.offset p.size with
    | error e => rw [hv] at h; cases h
    | ok span' =>
      rw [hv] at h
      obtain rfl := ExpertStore.checked_eq h
      exact view_inside hv

theorem index_sound : (∀ i : ExpertIndex, IndexSound i) ∧ ∀ s : ExpertStore, StoreSound s :=
  ⟨indexSound, storeSound⟩

end HyperMoE.Storage
