import Mathlib.Data.UInt
import HyperMoE.Lib.Outcome
import HyperMoE.Storage.ExpertStore

/-!
# The disk loader

`DiskLoader.cpp` and `ExpertStore::readExpert`: the bytes of one expert, from the mapping or from a
read of the file.

* `readExpert`        a range read; what the stream and the allocation come to is a parameter;
* `DiskLoader.load`   the record of an expert with its bytes;
* `load_bytes`        what is loaded is what the data file has there.

The data file is the one that was mapped: nobody writes to it while the store lives.
-/

namespace HyperMoE.Storage

open Lib

/-- what the system answers to a range read -/
structure ReadAnswers where
  opens : Bool := true
  reads : Bool := true
  deriving DecidableEq, Repr

/-- the largest `std::streamoff`, and the largest `std::streamsize` -/
def maxStream : UInt64 := 2 ^ 63 - 1

def ExpertStore.readExpert (s : ExpertStore) (answers : ReadAnswers) (layerId expertId : UInt32)
    (validateChecksum : Bool) : Except StorageError (List UInt8) :=
  match s.index.find layerId expertId with
  | none => .error ⟨"expert is not present in the index"⟩
  | some record =>
    let span : Span := ⟨record.offset.toNat, record.size.toNat⟩
    if answers.opens = false then .error ⟨"cannot open expert data file for range read"⟩
    else if record.offset > maxStream ∨ record.size > maxStream then
      .error ⟨"expert range is too large for stream I/O"⟩
    else if answers.reads = false ∨ outOfBounds s.data.size record.offset record.size then
      .error ⟨"short range read from experts.bin"⟩
    else (ExpertStore.checked (s.data.read span) record.checksum validateChecksum
      "expert checksum mismatch: data is corrupted" span).map s.data.read

inductive DiskReadMode where
  | MemoryMap
  | RangeRead
  deriving DecidableEq, Repr

structure LoadedExpert where
  record : ExpertRecord
  bytes : List UInt8
  deriving DecidableEq, Repr

structure DiskLoader where
  store : ExpertStore
  mode : DiskReadMode := .MemoryMap

namespace DiskLoader

def load (l : DiskLoader) (answers : ReadAnswers) (layerId expertId : UInt32) :
    Except StorageError LoadedExpert :=
  match l.store.index.find layerId expertId with
  | none => .error ⟨"requested expert does not exist"⟩
  | some record =>
    match l.mode with
    | .RangeRead => (l.store.readExpert answers layerId expertId true).map (⟨record, ·⟩)
    | .MemoryMap =>
      (l.store.mappedExpert layerId expertId true).map fun span => ⟨record, l.store.data.read span⟩

end DiskLoader

/-! ## the bytes of a record -/

/-- the bytes that the data file has for the record -/
def ExpertStore.stored (s : ExpertStore) (record : ExpertRecord) : List UInt8 :=
  s.data.read ⟨record.offset.toNat, record.size.toNat⟩

variable {s : ExpertStore} {l e : UInt32} {record : ExpertRecord}

theorem ExpertStore.length_stored (h : s.index.find l e = some record) :
    (s.stored record).length = record.size.toNat := by
  have hinside := s.record_inside (((indexSound s.index).find l e record).mp h).1
  unfold ExpertStore.stored File.read
  rw [List.length_take, List.length_drop]
  show min record.size.toNat (s.data.bytes.length - record.offset.toNat) = record.size.toNat
  omega

theorem ExpertStore.readExpert_eq {answers : ReadAnswers} {v : Bool} {bytes : List UInt8}
    (hfind : s.index.find l e = some record) (h : s.readExpert answers l e v = .ok bytes) :
    bytes = s.stored record := by
  unfold ExpertStore.readExpert at h
  simp only [hfind] at h
  split at h
  · cases h
  split at h
  · cases h
  split at h
  · cases h
  obtain ⟨span, hspan, rfl⟩ := Outcome.map_eq_ok.mp h
  rw [ExpertStore.checked_eq hspan]
  rfl

theorem ExpertStore.mappedExpert_eq {v : Bool} {span : Span}
    (hfind : s.index.find l e = some record) (h : s.mappedExpert l e v = .ok span) :
    s.data.read span = s.stored record := by
  have hinside := s.record_inside (((indexSound s.index).find l e record).mp hfind).1
  unfold ExpertStore.mappedExpert at h
  simp only [hfind, view_of_le hinside] at h
  rw [ExpertStore.checked_eq h]
  rfl

/-- in either mode -/
theorem DiskLoader.load_bytes {d : DiskLoader} {answers : ReadAnswers} {loaded : LoadedExpert}
    (h : d.load answers l e = .ok loaded) :
    d.store.index.find l e = some loaded.record ∧ loaded.bytes = d.store.stored loaded.record := by
  unfold DiskLoader.load at h
  cases hfind : d.store.index.find l e with
  | none =>
    rw [hfind] at h
    cases h
  | some record =>
    rw [hfind] at h
    cases hmode : d.mode with
    | RangeRead =>
      simp only [hmode] at h
      obtain ⟨bytes, hbytes, rfl⟩ := Outcome.map_eq_ok.mp h
      exact ⟨rfl, ExpertStore.readExpert_eq hfind hbytes⟩
    | MemoryMap =>
      simp only [hmode] at h
      obtain ⟨span, hspan, rfl⟩ := Outcome.map_eq_ok.mp h
      exact ⟨rfl, ExpertStore.mappedExpert_eq hfind hspan⟩

end HyperMoE.Storage
