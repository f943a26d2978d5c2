import HyperMoE.Lib.Stream
import HyperMoE.Lib.Table
import HyperMoE.Tensor.DType

/-!
# The expert index

`ExpertIndex.cpp`: the records of the experts and of their projections, the tables that look them
up, and the file format of both.

* `ExpertRecord`, `ProjectionRecord`   one entry each, with the integers of the file;
* `rebuildLookup`                      the checks of the constructor, and the tables it fills;
* `ExpertIndex`                        the lists, with the tables that the constructor has built;
* `find`, `findProjection`             the look-ups;
* `load`, `save`                       the reader and the writer of `experts.index`.

A projection type and an element type are kept as the integers that the file has; an array of three
positions is a function that is `none` where the code has the largest `size_t`.
-/

namespace HyperMoE.Storage

open Lib Lib.Fallible Tensor

structure StorageError where
  what : String
  deriving DecidableEq, Repr

/-- the contents of a file; the size of a file is a signed 64-bit number -/
structure File where
  bytes : List UInt8
  small : bytes.length < 2 ^ 63

def File.size (f : File) : UInt64 := UInt64.ofNat f.bytes.length

/-! ## records -/

structure ExpertRecord where
  layer_id : UInt32
  expert_id : UInt32
  offset : UInt64
  size : UInt64
  quantization_type : UInt32
  checksum : UInt32
  deriving DecidableEq, Repr

abbrev ProjectionType := UInt32

namespace ProjectionType

def Gate : ProjectionType := 0
def Up : ProjectionType := 1
def Down : ProjectionType := 2

end ProjectionType

structure ProjectionRecord where
  layer_id : UInt32
  expert_id : UInt32
  projection_type : ProjectionType := .Gate
  dtype : UInt32
  rank : UInt32
  reserved : UInt32 := 0
  offset : UInt64
  size : UInt64
  shape : Vector UInt64 4
  checksum : UInt32
  trailing_reserved : UInt32 := 0
  deriving DecidableEq, Repr

/-- `isValid(static_cast<QuantizationType>(code))` -/
def isValidQuantization (code : UInt32) : Bool := code ≤ 7

/-- `tensor::sizeOf(static_cast<tensor::DType>(code))` -/
def dtypeSize (code : UInt32) : UInt64 := (DType.ofCode code).elim 0 DType.sizeOf

def key (layerId expertId : UInt32) : UInt64 := layerId.toUInt64 <<< 32 ||| expertId.toUInt64

def ExpertRecord.key (r : ExpertRecord) : UInt64 := Storage.key r.layer_id r.expert_id

def ProjectionRecord.key (p : ProjectionRecord) : UInt64 := Storage.key p.layer_id p.expert_id

/-! ## the tables -/

/-- where the three projections of an expert are -/
abbrev Positions := UInt32 → Option Nat

structure Lookups where
  lookup : Table UInt64 Nat := ∅
  projectionLookup : Table UInt64 Positions := ∅

def findIn (records : List ExpertRecord) (lookup : Table UInt64 Nat) (layerId expertId : UInt32) :
    Option ExpertRecord :=
  (lookup.lookup (key layerId expertId)).bind fun index => records[index]?

abbrev Code := Watched StorageError

def addRecord (index : Nat) (record : ExpertRecord) (lookup : Table UInt64 Nat) :
    Code (Table UInt64 Nat) := do
  throwIf (record.size = 0 ∨ isValidQuantization record.quantization_type = false)
    ⟨"expert index contains an invalid size or quantization code"⟩
  throwIf (record.offset > maxWord - record.size) ⟨"expert index record range overflows"⟩
  throwIf ((lookup.lookup record.key).isSome = true)
    ⟨"expert index contains a duplicate layer/expert key"⟩
  return lookup.insert record.key index

/-- the projection's bytes are bytes of its expert -/
def checkRange (records : List ExpertRecord) (lookup : Table UInt64 Nat)
    (projection : ProjectionRecord) : Code Unit := do
  let expert ← orThrow (findIn records lookup projection.layer_id projection.expert_id)
    ⟨"projection record escapes its expert payload"⟩
  throwIf (projection.offset < expert.offset ∨ projection.offset > maxWord - projection.size)
    ⟨"projection record escapes its expert payload"⟩
  let projectionEnd ← Watched.add projection.offset projection.size
  let expertEnd ← Watched.add expert.offset expert.size
  throwIf (projectionEnd > expertEnd) ⟨"projection record escapes its expert payload"⟩

/-- `try_emplace`, then the position of the type -/
def place (index : Nat) (projection : ProjectionRecord) (positions : Table UInt64 Positions) :
    Code (Table UInt64 Positions) := do
  let found := (positions.lookup projection.key).getD fun _ => none
  throwIf ((found projection.projection_type).isSome = true)
    ⟨"expert index contains a duplicate projection record"⟩
  return positions.insert projection.key
    (Function.update found projection.projection_type (some index))

/-- the dimensions of the declared rank account for the size, and there are no others -/
def checkShape (projection : ProjectionRecord) : Code Unit := do
  let elements ← Watched.product ⟨"projection record contains a zero dimension"⟩
    ⟨"projection shape size overflows"⟩ 1 (projection.shape.toList.take projection.rank.toNat)
  throwIf (∃ d ∈ projection.shape.toList.drop projection.rank.toNat, d ≠ 0)
    ⟨"projection has dimensions beyond its declared rank"⟩
  throwIf (elements > maxWord / dtypeSize projection.dtype)
    ⟨"projection shape and dtype do not match its size"⟩
  let bytes ← Watched.mul elements (dtypeSize projection.dtype)
  throwIf (bytes ≠ projection.size) ⟨"projection shape and dtype do not match its size"⟩

def addProjection (records : List ExpertRecord) (lookup : Table UInt64 Nat) (index : Nat)
    (projection : ProjectionRecord) (positions : Table UInt64 Positions) :
    Code (Table UInt64 Positions) := do
  throwIf (projection.size = 0 ∨ projection.rank = 0 ∨ projection.rank > 4 ∨
      (DType.ofCode projection.dtype).isNone = true ∨ projection.reserved ≠ 0 ∨
      projection.trailing_reserved ≠ 0 ∨ projection.projection_type > .Down)
    ⟨"expert index contains an invalid projection record"⟩
  checkRange records lookup projection
  let positions ← place index projection positions
  checkShape projection
  return positions

def rebuildLookup (records : List ExpertRecord) (projections : List ProjectionRecord) :
    Code Lookups := do
  let lookup ← forEach addRecord 0 ∅ records
  let positions ← forEach (addProjection records lookup) 0 ∅ projections
  return { lookup := lookup, projectionLookup := positions }

/-! ## the index -/

structure ExpertIndex where
  records : List ExpertRecord
  projections : List ProjectionRecord
  lookups : Lookups
  built : ((rebuildLookup records projections).exec true).1 = .ok lookups

namespace ExpertIndex

/-- the constructor; that its arithmetic was exact is handed on -/
def make (records : List ExpertRecord) (projections : List ProjectionRecord) :
    Code ExpertIndex := fun exact =>
  match h : ((rebuildLookup records projections).exec true).1 with
  | .ok lookups => (.ok ⟨records, projections, lookups, h⟩,
      exact && ((rebuildLookup records projections).exec true).2)
  | .error e => (.error e, exact && ((rebuildLookup records projections).exec true).2)

def find (i : ExpertIndex) (layerId expertId : UInt32) : Option ExpertRecord :=
  findIn i.records i.lookups.lookup layerId expertId

def findProjection (i : ExpertIndex) (layerId expertId : UInt32) (type : ProjectionType) :
    Option ProjectionRecord :=
  match i.lookups.projectionLookup.lookup (key layerId expertId) with
  | none => none
  | some found => if type ≥ 3 then none else (found type).bind fun index => i.projections[index]?

end ExpertIndex

/-! ## the file -/

def magic : List UInt8 := [0x48, 0x4d, 0x4f, 0x45, 0x49, 0x44, 0x58, 0]

def endianMarker : UInt32 := 0x01020304
def headerSize : UInt64 := 32
def formatVersion : UInt32 := 2
def legacyFormatVersion : UInt32 := 1
def serializedRecordSize : UInt64 := 32
def serializedProjectionRecordSize : UInt64 := 80

/-- the largest `std::streamsize` -/
def maxStreamSize : UInt64 := 0x7fffffffffffffff

def truncated : StorageError := ⟨"truncated expert index"⟩

def readRecord : Reader StorageError ExpertRecord := do
  let layer_id ← readU32 truncated
  let expert_id ← readU32 truncated
  let offset ← readU64 truncated
  let size ← readU64 truncated
  let quantization_type ← readU32 truncated
  let checksum ← readU32 truncated
  return { layer_id, expert_id, offset, size, quantization_type, checksum }

def readShape : Reader StorageError (Vector UInt64 4) := do
  let d0 ← readU64 truncated
  let d1 ← readU64 truncated
  let d2 ← readU64 truncated
  let d3 ← readU64 truncated
  return #v[d0, d1, d2, d3]

def readProjection : Reader StorageError ProjectionRecord := do
  let layer_id ← readU32 truncated
  let expert_id ← readU32 truncated
  let projection_type ← readU32 truncated
  let dtype ← readU32 truncated
  let rank ← readU32 truncated
  let reserved ← readU32 truncated
  let offset ← readU64 truncated
  let size ← readU64 truncated
  let shape ← readShape
  let checksum ← readU32 truncated
  let trailing_reserved ← readU32 truncated
  return { layer_id, expert_id, projection_type, dtype, rank, reserved, offset, size, shape, checksum
           trailing_reserved }

structure Header where
  version : UInt32
  endian : UInt32
  recordSize : UInt32
  extensionRecordSize : UInt32
  count : UInt64

def readHeader : Reader StorageError Header := do
  let version ← readU32 truncated
  let endian ← readU32 truncated
  let recordSize ← readU32 truncated
  let extensionRecordSize ← readU32 truncated
  let count ← readU64 truncated
  return { version, endian, recordSize, extensionRecordSize, count }

def checkHeader (h : Header) : Code Unit := do
  throwIf (h.version ≠ legacyFormatVersion ∧ h.version ≠ formatVersion)
    ⟨"unsupported expert index version"⟩
  throwIf (h.endian ≠ endianMarker) ⟨"invalid expert index endian marker"⟩
  throwIf (h.recordSize ≠ serializedRecordSize.toUInt32 ∨
      (h.version = legacyFormatVersion ∧ h.extensionRecordSize ≠ 0) ∨
      (h.version = formatVersion ∧
        h.extensionRecordSize ≠ serializedProjectionRecordSize.toUInt32))
    ⟨"unsupported expert index record size"⟩
  throwIf (h.count > maxWord ∨ h.count > maxStreamSize / serializedRecordSize)
    ⟨"expert index record count is too large"⟩

/-- the size of the header and the records, which the file has to have -/
def baseSizeOf (fileSize : UInt64) (h : Header) : Code UInt64 := do
  throwIf (h.count > (maxWord - headerSize) / serializedRecordSize)
    ⟨"expert index size does not match its record count"⟩
  let recordBytes ← Watched.mul h.count serializedRecordSize
  let baseSize ← Watched.add headerSize recordBytes
  throwIf (fileSize < baseSize ∨ (h.version = legacyFormatVersion ∧ fileSize ≠ baseSize))
    ⟨"expert index size does not match its record count"⟩
  return baseSize

/-- the file ends with the last projection -/
def checkProjectionCount (fileSize baseSize projectionCount : UInt64) : Code Unit := do
  throwIf (baseSize > maxWord - 8) ⟨"expert projection index size is invalid"⟩
  let projectionBase ← Watched.add baseSize 8
  throwIf (projectionCount > maxWord ∨
      projectionCount > (maxWord - projectionBase) / serializedProjectionRecordSize)
    ⟨"expert projection index size is invalid"⟩
  let projectionBytes ← Watched.mul projectionCount serializedProjectionRecordSize
  let projectionEnd ← Watched.add projectionBase projectionBytes
  throwIf (fileSize ≠ projectionEnd) ⟨"expert projection index size is invalid"⟩

def readProjections (fileSize baseSize : UInt64) (version : UInt32) :
    Reader StorageError (List ProjectionRecord) :=
  if version = formatVersion then do
    let projectionCount ← readU64 truncated
    watch (checkProjectionCount fileSize baseSize projectionCount)
    readMany readProjection projectionCount.toNat
  else pure []

def readIndex (path : String) (fileSize : UInt64) : Reader StorageError ExpertIndex := do
  let found ← take 8 ⟨"invalid expert index magic: " ++ path⟩
  throwIf (found ≠ magic) ⟨"invalid expert index magic: " ++ path⟩
  let header ← readHeader
  watch (checkHeader header)
  let baseSize ← watch (baseSizeOf fileSize header)
  let records ← readMany readRecord header.count.toNat
  let projections ← readProjections fileSize baseSize header.version
  let s ← read
  throwIf (s.rest ≠ []) ⟨"expert index contains trailing data"⟩
  watch (ExpertIndex.make records projections)

/-- `load` of a file that could be opened: the index or the exception, and whether no size
computation has wrapped -/
def load (path : String) (f : File) : Except StorageError ExpertIndex × Bool :=
  let (r, s) := (readIndex path f.size).exec { rest := f.bytes }
  (r, s.exact)

def writeRecord (r : ExpertRecord) : List UInt8 :=
  writeU32 r.layer_id ++ writeU32 r.expert_id ++ writeU64 r.offset ++ writeU64 r.size ++
    writeU32 r.quantization_type ++ writeU32 r.checksum

def writeProjection (p : ProjectionRecord) : List UInt8 :=
  writeU32 p.layer_id ++ writeU32 p.expert_id ++ writeU32 p.projection_type ++ writeU32 p.dtype ++
    writeU32 p.rank ++ writeU32 p.reserved ++ writeU64 p.offset ++ writeU64 p.size ++
    p.shape.toList.flatMap writeU64 ++ writeU32 p.checksum ++ writeU32 p.trailing_reserved

/-- the bytes that `save` writes -/
def ExpertIndex.save (i : ExpertIndex) : List UInt8 :=
  magic ++ writeU32 (if i.projections = [] then legacyFormatVersion else formatVersion) ++
    writeU32 endianMarker ++ writeU32 serializedRecordSize.toUInt32 ++
    writeU32 (if i.projections = [] then 0 else serializedProjectionRecordSize.toUInt32) ++
    writeU64 (UInt64.ofNat i.records.length) ++ i.records.flatMap writeRecord ++
    if i.projections = [] then [] else
      writeU64 (UInt64.ofNat i.projections.length) ++ i.projections.flatMap writeProjection

end HyperMoE.Storage
