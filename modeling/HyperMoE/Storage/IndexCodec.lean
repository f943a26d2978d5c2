import HyperMoE.Storage.ExpertStore

/-!
# The file format of the index

`load` reads back what `save` wrote, and accepts nothing else.

* `serialize`            the bytes of an index in one of the two versions;
* `reads_record` ...     every reader against its writer;
* `wp_checkHeader` ...   the checks in between, over the integers;
* `load_iff`             `load` answers with an index when the file is one of its serializations;
* `index_codec`          both round trips, and no computation wraps.
-/

namespace HyperMoE.Storage

open Lib Lib.Fallible Tensor

/-! ## serializations -/

def writeHeader (h : Header) : List UInt8 :=
  writeU32 h.version ++ (writeU32 h.endian ++ (writeU32 h.recordSize ++
    (writeU32 h.extensionRecordSize ++ writeU64 h.count)))

/-- the header of a file of the version -/
def headerOf (version : UInt32) (count : UInt64) : Header where
  version := version
  endian := endianMarker
  recordSize := 32
  extensionRecordSize := if version = legacyFormatVersion then 0 else 80
  count := count

def serializeProjections (version : UInt32) (projections : List ProjectionRecord) : List UInt8 :=
  if version = formatVersion then
    writeU64 (UInt64.ofNat projections.length) ++ projections.flatMap writeProjection
  else []

def serialize (version : UInt32) (i : ExpertIndex) : List UInt8 :=
  magic ++ (writeHeader (headerOf version (UInt64.ofNat i.records.length)) ++
    (i.records.flatMap writeRecord ++ serializeProjections version i.projections))

/-- version 1 has no place for projections -/
def Admits (version : UInt32) (i : ExpertIndex) : Prop :=
  version = formatVersion ∨ (version = legacyFormatVersion ∧ i.projections = [])

theorem save_eq (i : ExpertIndex) : i.save =
    serialize (if i.projections = [] then legacyFormatVersion else formatVersion) i := by
  unfold ExpertIndex.save serialize writeHeader headerOf serializeProjections
  by_cases h : i.projections = []
  · simp only [if_pos h, List.append_assoc]
    rfl
  · simp only [if_neg h, List.append_assoc]
    rfl

theorem length_writeRecord (r : ExpertRecord) : (writeRecord r).length = 32 := by
  simp [writeRecord]

theorem length_writeProjection (p : ProjectionRecord) : (writeProjection p).length = 80 := by
  simp [writeProjection]

theorem length_flatMap_of {α : Type} {w : α → List UInt8} {n : Nat} (h : ∀ a, (w a).length = n)
    (as : List α) : (as.flatMap w).length = n * as.length := by
  rw [List.length_flatMap]
  simp [h, Nat.mul_comm]

theorem length_serialize (version : UInt32) (i : ExpertIndex) :
    (serialize version i).length = 32 + 32 * i.records.length +
      if version = formatVersion then 8 + 80 * i.projections.length else 0 := by
  unfold serialize serializeProjections writeHeader magic
  simp only [List.length_append, length_flatMap_of length_writeRecord, length_writeU32,
    length_writeU64, List.length_cons, List.length_nil]
  split
  · simp only [List.length_append, length_flatMap_of length_writeProjection, length_writeU64]
    omega
  · simp only [List.length_nil]
    omega

/-! ## readers -/

theorem reads_record : Reads (fun _ => True) readRecord writeRecord truncated := by
  refine (Reads.bind ExpertRecord.layer_id (.u32 _) (fun _ _ => trivial) fun l _ =>
    .bind ExpertRecord.expert_id (.u32 _) (fun _ _ => trivial) fun e _ =>
    .bind ExpertRecord.offset (.u64 _) (fun _ _ => trivial) fun o _ =>
    .bind ExpertRecord.size (.u64 _) (fun _ _ => trivial) fun s _ =>
    .bind ExpertRecord.quantization_type (.u32 _) (fun _ _ => trivial) fun q _ =>
    .bind ExpertRecord.checksum (.u32 _) (fun _ _ => trivial) fun c _ =>
    Reads.pure fun r => ?_).congr fun r => ?_
  · constructor
    · rintro ⟨⟨⟨⟨⟨⟨-, rfl⟩, rfl⟩, rfl⟩, rfl⟩, rfl⟩, rfl⟩
      rfl
    · rintro rfl
      exact ⟨⟨⟨⟨⟨⟨trivial, rfl⟩, rfl⟩, rfl⟩, rfl⟩, rfl⟩, rfl⟩
  · simp [writeRecord]

theorem vector_four (v : Vector UInt64 4) : #v[v[0], v[1], v[2], v[3]] = v := by
  ext i hi
  match i, hi with
  | 0, _ => rfl
  | 1, _ => rfl
  | 2, _ => rfl
  | 3, _ => rfl

theorem reads_shape :
    Reads (fun _ => True) readShape (fun shape => shape.toList.flatMap writeU64) truncated := by
  refine (Reads.bind (fun v : Vector UInt64 4 => v[0]) (.u64 _) (fun _ _ => trivial) fun d0 _ =>
    .bind (fun v : Vector UInt64 4 => v[1]) (.u64 _) (fun _ _ => trivial) fun d1 _ =>
    .bind (fun v : Vector UInt64 4 => v[2]) (.u64 _) (fun _ _ => trivial) fun d2 _ =>
    .bind (fun v : Vector UInt64 4 => v[3]) (.u64 _) (fun _ _ => trivial) fun d3 _ =>
    Reads.pure fun v => ?_).congr fun v => ?_
  · constructor
    · rintro ⟨⟨⟨⟨-, rfl⟩, rfl⟩, rfl⟩, rfl⟩
      exact (vector_four v).symm
    · rintro rfl
      exact ⟨⟨⟨⟨trivial, rfl⟩, rfl⟩, rfl⟩, rfl⟩
  · rw [← vector_four v]
    simp

theorem reads_projection : Reads (fun _ => True) readProjection writeProjection truncated := by
  refine (Reads.bind ProjectionRecord.layer_id (.u32 _) (fun _ _ => trivial) fun l _ =>
    .bind ProjectionRecord.expert_id (.u32 _) (fun _ _ => trivial) fun e _ =>
    .bind ProjectionRecord.projection_type (.u32 _) (fun _ _ => trivial) fun t _ =>
    .bind ProjectionRecord.dtype (.u32 _) (fun _ _ => trivial) fun d _ =>
    .bind ProjectionRecord.rank (.u32 _) (fun _ _ => trivial) fun n _ =>
    .bind ProjectionRecord.reserved (.u32 _) (fun _ _ => trivial) fun z _ =>
    .bind ProjectionRecord.offset (.u64 _) (fun _ _ => trivial) fun o _ =>
    .bind ProjectionRecord.size (.u64 _) (fun _ _ => trivial) fun s _ =>
    .bind ProjectionRecord.shape reads_shape (fun _ _ => trivial) fun v _ =>
    .bind ProjectionRecord.checksum (.u32 _) (fun _ _ => trivial) fun c _ =>
    .bind ProjectionRecord.trailing_reserved (.u32 _) (fun _ _ => trivial) fun z' _ =>
    Reads.pure fun p => ?_).congr fun p => ?_
  · constructor
    · rintro ⟨⟨⟨⟨⟨⟨⟨⟨⟨⟨⟨-, rfl⟩, rfl⟩, rfl⟩, rfl⟩, rfl⟩, rfl⟩, rfl⟩, rfl⟩, rfl⟩, rfl⟩, rfl⟩
      rfl
    · rintro rfl
      exact ⟨⟨⟨⟨⟨⟨⟨⟨⟨⟨⟨trivial, rfl⟩, rfl⟩, rfl⟩, rfl⟩, rfl⟩, rfl⟩, rfl⟩, rfl⟩, rfl⟩, rfl⟩, rfl⟩
  · simp only [writeProjection, List.append_assoc, List.append_nil]

theorem reads_header : Reads (fun _ => True) readHeader writeHeader truncated := by
  refine (Reads.bind Header.version (.u32 _) (fun _ _ => trivial) fun v _ =>
    .bind Header.endian (.u32 _) (fun _ _ => trivial) fun e _ =>
    .bind Header.recordSize (.u32 _) (fun _ _ => trivial) fun r _ =>
    .bind Header.extensionRecordSize (.u32 _) (fun _ _ => trivial) fun x _ =>
    .bind Header.count (.u64 _) (fun _ _ => trivial) fun c _ =>
    Reads.pure fun h => ?_).congr fun h => ?_
  · constructor
    · rintro ⟨⟨⟨⟨⟨-, rfl⟩, rfl⟩, rfl⟩, rfl⟩, rfl⟩
      rfl
    · rintro rfl
      exact ⟨⟨⟨⟨⟨trivial, rfl⟩, rfl⟩, rfl⟩, rfl⟩, rfl⟩
  · simp only [writeHeader, List.append_nil]

/-! ## the checks in between -/

variable {exact : Bool}

theorem wp_checkHeader {h : Header} : wp (checkHeader h) (fun r exact' => exact' = exact ∧
    (r = .ok () ↔ (h.version = legacyFormatVersion ∨ h.version = formatVersion) ∧
      h = headerOf h.version h.count ∧ h.count.toNat ≤ (2 ^ 63 - 1) / 32)) exact := by
  have hcount : ¬ (h.count > maxWord ∨ h.count > maxStreamSize / serializedRecordSize) ↔
      h.count.toNat ≤ (2 ^ 63 - 1) / 32 := by
    have hlt := UInt64.toNat_lt h.count
    rw [not_or, UInt64.not_lt, UInt64.not_lt, UInt64.le_iff_toNat_le, UInt64.le_iff_toNat_le]
    show _ ≤ 2 ^ 64 - 1 ∧ _ ≤ (2 ^ 63 - 1) / 32 ↔ _
    omega
  obtain ⟨version, endian, recordSize, extension, count⟩ := h
  show wp (_ >>= _) _ exact
  rw [wp_bind, wp_throwIf]
  split
  · next hv =>
    refine ⟨rfl, fun h => (by cases h), fun h => ?_⟩
    rcases h.1 with h | h
    · exact absurd h hv.1
    · exact absurd h hv.2
  next hv =>
  show wp (_ >>= _) _ exact
  rw [wp_bind, wp_throwIf]
  split
  · next he => exact ⟨rfl, fun h => (by cases h), fun h => absurd (congrArg Header.endian h.2.1) he⟩
  next he =>
  show wp (_ >>= _) _ exact
  rw [wp_bind, wp_throwIf]
  split
  · next hs =>
    refine ⟨rfl, fun h => (by cases h), fun h => ?_⟩
    have hr : recordSize = 32 := congrArg Header.recordSize h.2.1
    have hx : extension = if version = legacyFormatVersion then 0 else 80 :=
      congrArg Header.extensionRecordSize h.2.1
    rcases hs with hs | ⟨rfl, hs⟩ | ⟨rfl, hs⟩
    · exact absurd hr hs
    · exact absurd hx hs
    · exact absurd hx hs
  next hs =>
  show wp (throwIf _ _) _ exact
  rw [wp_throwIf]
  split
  · next hc => exact ⟨rfl, fun h => (by cases h), fun h => absurd hc (hcount.mpr h.2.2)⟩
  next hc =>
  refine ⟨rfl, fun _ => ?_, fun _ => rfl⟩
  obtain rfl := Classical.not_not.mp he
  simp only [not_or, not_and, Classical.not_not] at hs hv
  obtain ⟨rfl, hlegacy, hformat⟩ := hs
  have hversion : version = legacyFormatVersion ∨ version = formatVersion :=
    (Classical.em _).imp_right hv
  refine ⟨hversion, ?_, hcount.mp hc⟩
  rcases hversion with rfl | rfl
  · rw [hlegacy rfl]
    rfl
  · rw [hformat rfl]
    rfl

theorem wp_baseSizeOf {fileSize : UInt64} {h : Header} : wp (baseSizeOf fileSize h)
    (fun r exact' => exact' = exact ∧ ∀ b, r = .ok b ↔ b.toNat = 32 + 32 * h.count.toNat ∧
      b.toNat ≤ fileSize.toNat ∧ (h.version = legacyFormatVersion → fileSize.toNat = b.toNat))
    exact := by
  have hcount : h.count > (maxWord - headerSize) / serializedRecordSize ↔
      2 ^ 64 ≤ 32 + 32 * h.count.toNat := by
    show _ < _ ↔ _
    rw [UInt64.lt_iff_toNat_lt]
    show (2 ^ 64 - 1 - 32) / 32 < _ ↔ _
    omega
  show wp (_ >>= _) _ exact
  rw [wp_bind, wp_throwIf]
  split
  · next hc =>
    refine ⟨rfl, fun b => ⟨fun h => (by cases h), fun h => ?_⟩⟩
    have hb := UInt64.toNat_lt b
    have := hcount.mp hc
    omega
  next hc =>
  rw [hcount] at hc
  have h32 : serializedRecordSize.toNat = 32 := rfl
  have hhead : headerSize.toNat = 32 := rfl
  show wp (_ >>= _) _ exact
  rw [wp_bind]
  refine Watched.wp_mul (by rw [h32]; omega) fun recordBytes hr => ?_
  rw [h32] at hr
  show wp (_ >>= _) _ exact
  rw [wp_bind]
  refine Watched.wp_add (by omega) fun baseSize hb => ?_
  have hbase : baseSize.toNat = 32 + 32 * h.count.toNat := by omega
  show wp (_ >>= _) _ exact
  rw [wp_bind, wp_throwIf]
  split
  · next hs =>
    refine ⟨rfl, fun b => ⟨fun h => (by cases h), fun h => ?_⟩⟩
    obtain rfl : b = baseSize := UInt64.toNat_inj.mp (h.1.trans hbase.symm)
    rcases hs with hs | ⟨hv, hs⟩
    · exact absurd (UInt64.lt_iff_toNat_lt.mp hs) (Nat.not_lt.mpr h.2.1)
    · exact absurd (UInt64.toNat_inj.mp (h.2.2 hv)) hs
  next hs =>
  obtain ⟨hle, hv⟩ := not_or.mp hs
  rw [UInt64.not_lt, UInt64.le_iff_toNat_le] at hle
  refine ⟨rfl, fun b => ⟨fun h => ?_, fun h => ?_⟩⟩
  · obtain rfl := Except.ok.inj h
    refine ⟨hbase, hle, fun h => congrArg UInt64.toNat ?_⟩
    exact Classical.not_not.mp fun hne => hv ⟨h, hne⟩
  · obtain rfl : b = baseSize := UInt64.toNat_inj.mp (h.1.trans hbase.symm)
    rfl

theorem wp_checkProjectionCount {fileSize baseSize projectionCount : UInt64} :
    wp (checkProjectionCount fileSize baseSize projectionCount) (fun r exact' => exact' = exact ∧
      (r = .ok () ↔ fileSize.toNat = baseSize.toNat + 8 + 80 * projectionCount.toNat)) exact := by
  have hfile := UInt64.toNat_lt fileSize
  have hcount := UInt64.toNat_lt projectionCount
  show wp (_ >>= _) _ exact
  rw [wp_bind, wp_throwIf]
  split
  · next hb =>
    have hlt : 2 ^ 64 - 1 - 8 < baseSize.toNat := UInt64.lt_iff_toNat_lt.mp hb
    exact ⟨rfl, fun h => (by cases h), fun h => by omega⟩
  next hb =>
  have hle : baseSize.toNat ≤ 2 ^ 64 - 1 - 8 :=
    UInt64.le_iff_toNat_le.mp (UInt64.not_lt.mp hb)
  show wp (_ >>= _) _ exact
  rw [wp_bind]
  refine Watched.wp_add (show _ + 8 < _ by omega) fun projectionBase hp => ?_
  replace hp : projectionBase.toNat = baseSize.toNat + 8 := hp
  have hroom : projectionCount > (maxWord - projectionBase) / serializedProjectionRecordSize ↔
      (2 ^ 64 - 1 - projectionBase.toNat) / 80 < projectionCount.toNat := by
    show _ < _ ↔ _
    have hle : projectionBase ≤ maxWord := UInt64.le_iff_toNat_le.mpr (by
      rw [Watched.toNat_maxWord]
      omega)
    rw [UInt64.lt_iff_toNat_lt, UInt64.toNat_div, UInt64.toNat_sub_of_le _ _ hle]
    rfl
  show wp (_ >>= _) _ exact
  rw [wp_bind, wp_throwIf]
  split
  · next hs =>
    refine ⟨rfl, fun h => (by cases h), fun h => ?_⟩
    rcases hs with hs | hs
    · have := UInt64.lt_iff_toNat_lt.mp hs
      rw [Watched.toNat_maxWord] at this
      omega
    · have := hroom.mp hs
      omega
  next hs =>
  have hfits : ¬ (2 ^ 64 - 1 - projectionBase.toNat) / 80 < projectionCount.toNat :=
    fun h => hs (.inr (hroom.mpr h))
  have h80 : serializedProjectionRecordSize.toNat = 80 := rfl
  show wp (_ >>= _) _ exact
  rw [wp_bind]
  refine Watched.wp_mul (by rw [h80]; omega) fun projectionBytes hbytes => ?_
  rw [h80] at hbytes
  show wp (_ >>= _) _ exact
  rw [wp_bind]
  refine Watched.wp_add (by omega) fun projectionEnd hend => ?_
  have hsize : fileSize = projectionEnd ↔
      fileSize.toNat = baseSize.toNat + 8 + 80 * projectionCount.toNat := by
    rw [← UInt64.toNat_inj]
    omega
  show wp (throwIf _ _) _ exact
  rw [wp_throwIf]
  split
  · next hne => exact ⟨rfl, fun h => (by cases h), fun h => absurd (hsize.mpr h) hne⟩
  next heq => exact ⟨rfl, fun _ => hsize.mp (Classical.not_not.mp heq), fun _ => rfl⟩

/-! ## load -/

theorem exec_make (records : List ExpertRecord) (projections : List ProjectionRecord) :
    (ExpertIndex.make records projections).exec exact =
      match h : ((rebuildLookup records projections).exec true).1 with
      | .ok lookups => (.ok ⟨records, projections, lookups, h⟩,
          exact && ((rebuildLookup records projections).exec true).2)
      | .error e => (.error e, exact && ((rebuildLookup records projections).exec true).2) := rfl

theorem wp_make {records : List ExpertRecord} {projections : List ProjectionRecord} :
    wp (ExpertIndex.make records projections) (fun r exact' => exact' = exact ∧
      ∀ i, r = .ok i ↔ i.records = records ∧ i.projections = projections) exact := by
  have hexact : ((rebuildLookup records projections).exec true).2 = true :=
    (wp_rebuildLookup records projections true).1
  unfold wp
  rw [exec_make, hexact, Bool.and_true]
  split
  · next lookups h =>
    refine ⟨rfl, fun i => ⟨fun hi => ?_, fun hi => ?_⟩⟩
    · obtain rfl := Except.ok.inj hi
      exact ⟨rfl, rfl⟩
    · obtain ⟨records', projections', lookups', built⟩ := i
      obtain ⟨rfl, rfl⟩ := hi
      obtain rfl := Except.ok.inj (h.symm.trans built)
      rfl
  · next e h =>
    refine ⟨rfl, fun i => ⟨fun hi => (by cases hi), fun hi => ?_⟩⟩
    have built := i.built
    rw [hi.1, hi.2, h] at built
    cases built

/-- a check, in the middle of reading -/
theorem wp_watch {α : Type} {x : Code α} {R : Except StorageError α → Prop} {s : Stream}
    {Q : Except StorageError α → Stream → Prop}
    (h : wp x (fun r exact' => exact' = s.exact ∧ R r) s.exact) (hQ : ∀ r, R r → Q r s) :
    wp (watch x) Q s := by
  show wp (zoom _ _ x) Q s
  rw [wp_zoom]
  refine wp_mono h fun r exact' hr => ?_
  rw [hr.1]
  exact hQ r hr.2

theorem wp_readProjections {fileSize baseSize : UInt64} {version : UInt32} {s : Stream} :
    wp (readProjections fileSize baseSize version) (fun r s' => s'.exact = s.exact ∧
      ∀ projections, r = .ok projections → (version = formatVersion ∨ projections = []) ∧
        s.rest = serializeProjections version projections ++ s'.rest) s := by
  unfold readProjections serializeProjections
  split
  · next hv =>
    show wp (_ >>= _) _ _
    rw [wp_bind]
    refine (Reads.u64 _).wp (fun projectionCount rest _ hs => ?_)
      fun rest => ⟨rfl, fun _ h => (nomatch h)⟩
    show wp (_ >>= _) _ _
    rw [wp_bind]
    refine wp_watch wp_checkProjectionCount fun r _ => ?_
    cases r with
    | error e => exact ⟨rfl, fun _ h => (nomatch h)⟩
    | ok u =>
    refine (Reads.many reads_projection _).wp (fun projections rest' hlen hs' => ?_)
      fun rest => ⟨rfl, fun _ h => (nomatch h)⟩
    refine ⟨rfl, fun projections' h => ⟨.inl hv, ?_⟩⟩
    obtain rfl := Except.ok.inj h
    rw [hlen, UInt64.ofNat_toNat, List.append_assoc, hs]
    exact congrArg _ hs'
  · next hv =>
    refine ⟨rfl, fun projections h => ?_⟩
    obtain rfl := Except.ok.inj h
    exact ⟨.inr rfl, rfl⟩

theorem wp_readProjections_serialize {fileSize baseSize : UInt64} {version : UInt32}
    {i : ExpertIndex} (hv : Admits version i) (hsize : version = formatVersion →
      i.projections.length < 2 ^ 64 ∧
        fileSize.toNat = baseSize.toNat + 8 + 80 * i.projections.length) :
    wp (readProjections fileSize baseSize version)
      (fun r s => r = .ok i.projections ∧ s = ⟨[], exact⟩)
      ⟨serializeProjections version i.projections, exact⟩ := by
  unfold readProjections serializeProjections
  split
  · next h =>
    obtain ⟨hlt, hfile⟩ := hsize h
    have hcount : (UInt64.ofNat i.projections.length).toNat = i.projections.length :=
      UInt64.toNat_ofNat_of_lt' hlt
    show wp (_ >>= _) _ _
    rw [wp_bind]
    refine (Reads.u64 _).wp_append trivial ?_
    show wp (_ >>= _) _ _
    rw [wp_bind]
    refine wp_watch wp_checkProjectionCount fun r hr => ?_
    obtain rfl : r = .ok () := hr.mpr (by rw [hcount]; exact hfile)
    have hall : wp (readMany readProjection (UInt64.ofNat i.projections.length).toNat)
        (fun r (s : Stream) => r = .ok i.projections ∧ s = ⟨[], exact⟩)
        ⟨i.projections.flatMap writeProjection ++ [], exact⟩ :=
      (Reads.many reads_projection (UInt64.ofNat i.projections.length).toNat).wp_append
        hcount.symm ⟨rfl, rfl⟩
    rw [List.append_nil] at hall
    exact hall
  · next h => exact ⟨congrArg Except.ok (hv.resolve_left h).2.symm, rfl⟩

/-- no byte string makes a size wrap, and an index comes from one of its serializations -/
theorem wp_readIndex (path : String) (f : File) : wp (readIndex path f.size)
    (fun r s => s.exact = true ∧ ∀ i, r = .ok i → ∃ v, Admits v i ∧ f.bytes = serialize v i)
    { rest := f.bytes } := by
  have hnone : ∀ {e : StorageError} {i : ExpertIndex} {P : Prop}, Except.error e = .ok i → P :=
    fun h => nomatch h
  show wp (_ >>= _) _ _
  rw [wp_bind]
  refine (Reads.take 8 _).wp (fun found rest hlen hs => ?_) fun rest => ⟨rfl, fun i => hnone⟩
  show wp (_ >>= _) _ _
  rw [wp_bind, wp_throwIf]
  split
  · exact ⟨rfl, fun i => hnone⟩
  next hmagic =>
  obtain rfl := Classical.not_not.mp hmagic
  show wp (_ >>= _) _ _
  rw [wp_bind]
  refine reads_header.wp (fun header rest₁ _ hs₁ => ?_) fun rest => ⟨rfl, fun i => hnone⟩
  show wp (_ >>= _) _ _
  rw [wp_bind]
  refine wp_watch wp_checkHeader fun r hheader => ?_
  cases r with
  | error e => exact ⟨rfl, fun i => hnone⟩
  | ok u =>
  obtain ⟨hversion, hheader, hcount⟩ := hheader.mp rfl
  show wp (_ >>= _) _ _
  rw [wp_bind]
  refine wp_watch wp_baseSizeOf fun r hbase => ?_
  cases r with
  | error e => exact ⟨rfl, fun i => hnone⟩
  | ok baseSize =>
  obtain ⟨hbase, hle, hlegacy⟩ := (hbase baseSize).mp rfl
  show wp (_ >>= _) _ _
  rw [wp_bind]
  refine (Reads.many reads_record _).wp (fun records rest₂ hrecords hs₂ => ?_)
    fun rest => ⟨rfl, fun i => hnone⟩
  show wp (_ >>= _) _ _
  rw [wp_bind]
  refine wp_mono wp_readProjections fun r s₃ hprojections => ?_
  obtain ⟨rest₃, exact₃⟩ := s₃
  obtain ⟨rfl, hprojections⟩ := hprojections
  cases r with
  | error e => exact ⟨rfl, fun i => hnone⟩
  | ok projections =>
  obtain ⟨hadmits, hs₃⟩ := hprojections projections rfl
  show wp (_ >>= _) _ _
  rw [wp_bind, wp_read]
  show wp (_ >>= _) _ _
  rw [wp_bind, wp_throwIf]
  split
  · exact ⟨rfl, fun i => hnone⟩
  next hend =>
  obtain rfl : rest₃ = [] := Classical.not_not.mp hend
  refine wp_watch wp_make fun r hmake => ⟨rfl, fun i hi => ?_⟩
  obtain ⟨rfl, rfl⟩ := (hmake i).mp hi
  have hcount : UInt64.ofNat i.records.length = header.count := by
    rw [hrecords]
    exact UInt64.ofNat_toNat
  refine ⟨header.version, ?_, ?_⟩
  · rcases hversion with hv | hv
    · refine .inr ⟨hv, hadmits.resolve_left fun h => ?_⟩
      rw [hv] at h
      cases h
    · exact .inl hv
  · replace hs : f.bytes = magic ++ rest := hs
    replace hs₁ : rest = writeHeader header ++ rest₁ := hs₁
    replace hs₂ : rest₁ = i.records.flatMap writeRecord ++ rest₂ := hs₂
    replace hs₃ : rest₂ = serializeProjections header.version i.projections ++ [] := hs₃
    unfold serialize
    rw [hs, hs₁, hs₂, hs₃, List.append_nil, hcount, ← hheader]

/-- what was written is read back -/
theorem wp_readIndex_serialize (path : String) {f : File} {v : UInt32} {i : ExpertIndex}
    (hv : Admits v i) (hf : f.bytes = serialize v i) :
    wp (readIndex path f.size) (fun r _ => r = .ok i) { rest := f.bytes } := by
  have hlen := length_serialize v i
  have hsmall := f.small
  have hsize := f.toNat_size
  rw [← hf] at hlen
  have hrecords : (UInt64.ofNat i.records.length).toNat = i.records.length :=
    UInt64.toNat_ofNat_of_lt' (by show _ < 2 ^ 64; omega)
  have hversion : v = legacyFormatVersion ∨ v = formatVersion := hv.symm.imp_left And.left
  rw [hf]
  show wp (_ >>= _) _ _
  rw [wp_bind]
  refine (Reads.take 8 _).wp_append (a := magic) rfl ?_
  show wp (_ >>= _) _ _
  rw [wp_bind, wp_throwIf, if_neg fun h => h rfl]
  show wp (_ >>= _) _ _
  rw [wp_bind]
  refine reads_header.wp_append trivial ?_
  show wp (_ >>= _) _ _
  rw [wp_bind]
  refine wp_watch wp_checkHeader fun r hr => ?_
  obtain rfl : r = .ok () := hr.mpr ⟨hversion, rfl, by show (UInt64.ofNat _).toNat ≤ _; omega⟩
  show wp (_ >>= _) _ _
  rw [wp_bind]
  refine wp_watch wp_baseSizeOf fun r hr => ?_
  have hbase : (UInt64.ofNat (32 + 32 * i.records.length)).toNat = 32 + 32 * i.records.length :=
    UInt64.toNat_ofNat_of_lt' (by show _ < 2 ^ 64; omega)
  obtain rfl : r = .ok (UInt64.ofNat (32 + 32 * i.records.length)) := by
    refine (hr _).mpr ⟨?_, ?_, fun hlegacy => ?_⟩
    · show _ = 32 + 32 * (UInt64.ofNat i.records.length).toNat
      rw [hbase, hrecords]
    · omega
    · have hne : v ≠ formatVersion := by
        rintro rfl
        cases hlegacy
      rw [if_neg hne] at hlen
      omega
  show wp (_ >>= _) _ _
  rw [wp_bind]
  refine (Reads.many reads_record _).wp_append hrecords.symm ?_
  show wp (_ >>= _) _ _
  rw [wp_bind]
  refine wp_mono (wp_readProjections_serialize hv ?_) fun r s hr => ?_
  · intro h
    replace h : v = formatVersion := h
    rw [if_pos h] at hlen
    omega
  obtain ⟨rfl, rfl⟩ := hr
  show wp (_ >>= _) _ _
  rw [wp_bind, wp_read]
  show wp (_ >>= _) _ _
  rw [wp_bind, wp_throwIf, if_neg fun h => h rfl]
  exact wp_watch wp_make fun r hr => (hr i).mpr ⟨rfl, rfl⟩

theorem load_iff (path : String) (f : File) (i : ExpertIndex) :
    (load path f).1 = .ok i ↔ ∃ v, Admits v i ∧ f.bytes = serialize v i :=
  ⟨(wp_readIndex path f).2 i, fun ⟨_, hv, hf⟩ => wp_readIndex_serialize path hv hf⟩

/-- what was saved is loaded; what is loaded is saved to the same bytes, or, where it was a file of
version 2 without projections, to the file of version 1; a file that is loaded ends with its last
entry; and no size wraps, whatever the bytes are -/
theorem index_codec (path : String) :
    (∀ (i : ExpertIndex) (f : File), f.bytes = i.save → (load path f).1 = .ok i) ∧
    (∀ (f : File) (i : ExpertIndex), (load path f).1 = .ok i →
      (f.bytes = i.save ∨ (i.projections = [] ∧ f.bytes = serialize formatVersion i ∧
        i.save = serialize legacyFormatVersion i)) ∧
      f.bytes.length = 32 + 32 * i.records.length +
        if f.bytes = serialize formatVersion i then 8 + 80 * i.projections.length else 0) ∧
    ∀ f : File, (load path f).2 = true := by
  refine ⟨fun i f hf => ?_, fun f i hi => ?_, fun f => (wp_readIndex path f).1⟩
  · refine (load_iff path f i).mpr ⟨_, ?_, hf.trans (save_eq i)⟩
    by_cases h : i.projections = []
    · rw [if_pos h]
      exact .inr ⟨rfl, h⟩
    · rw [if_neg h]
      exact .inl rfl
  · obtain ⟨v, hv, hf⟩ := (load_iff path f i).mp hi
    have hsave := save_eq i
    have hlen := length_serialize v i
    rw [← hf] at hlen
    rcases hv with rfl | ⟨rfl, hnil⟩
    · refine ⟨?_, ?_⟩
      · by_cases h : i.projections = []
        · rw [if_pos h] at hsave
          exact .inr ⟨h, hf, hsave⟩
        · rw [if_neg h] at hsave
          exact .inl (hf.trans hsave.symm)
      · rw [if_pos hf]
        exact hlen
    · rw [if_pos hnil] at hsave
      refine ⟨.inl (hf.trans hsave.symm), ?_⟩
      have hne : f.bytes ≠ serialize formatVersion i := by
        intro h
        have h' := length_serialize formatVersion i
        rw [← h, hlen] at h'
        simp [legacyFormatVersion, formatVersion] at h'
      rw [if_neg hne]
      exact hlen

end HyperMoE.Storage
