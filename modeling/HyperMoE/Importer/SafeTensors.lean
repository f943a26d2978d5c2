import HyperMoE.Metadata.Language
import HyperMoE.Models.ModelManifest
import HyperMoE.Storage.ExpertIndex

/-!
# SafeTensors files

`SafeTensors.cpp`: the header of an untrusted file, read into the tensors that it declares.

* `readTensor`, `readTensors`   one entry of the header, and all of them;
* `checkRanges`                 adjacent ranges of the sorted tensors;
* `inspectFile`                 the whole; the path that the tensors carry is resolved elsewhere;
* `Declares`                    what a returned tensor has to do with its entry and with the file;
* `inspectFile_sound`           every returned list is what the header declares, inside the file and
                                without overlap, and no computation wraps.
-/

namespace HyperMoE.Importer

open Lib Lib.Fallible Metadata Models Storage Tensor

inductive ImportError where
  | metadata (e : ParseError MetadataError)
  | std (e : StdError)

def ImportError.IsThrown : ImportError → Prop
  | metadata e => e.IsThrown
  | std _ => True

abbrev Code := Watched ImportError

def metadataError (what : String) : ImportError := .metadata (.thrown ⟨what⟩)

/-- an accessor of a JSON value, in any of the programs here -/
def access {σ α : Type} (r : Except MetadataError α) : Fallible ImportError σ α :=
  settle (r.mapError fun e => .metadata (.thrown e))

def maximumHeaderBytes : UInt64 := 100 * 1024 * 1024

def parseSafeTensorDType (value : Text) : Except MetadataError DType :=
  if value = ascii "F32" then .ok .FP32
  else if value = ascii "F16" then .ok .FP16
  else if value = ascii "BF16" then .ok .BF16
  else if value = ascii "I8" then .ok .INT8
  else .error ⟨"SafeTensors dtype is not yet supported by HyperMoE: " ++ message value⟩

def readDimensions : List JsonValue → Code (List UInt64)
  | [] => pure []
  | dimension :: items => do
    let number ← access dimension.asUInt64
    throwIf (number = 0) (metadataError "invalid SafeTensors shape")
    let dimensions ← readDimensions items
    return number :: dimensions

/-- the declared range, as an offset in the file and a size -/
def readRange (fileSize headerSize : UInt64) (value : JsonValue) : Code (UInt64 × UInt64) := do
  let offsets ← access (value.require "data_offsets" >>= JsonValue.asArray)
  match offsets with
  | [first, second] => do
    let start ← access first.asUInt64
    let stop ← access second.asUInt64
    throwIf (stop ≤ start) (metadataError "SafeTensors range is empty or reversed")
    let dataBase ← Watched.add 8 headerSize
    throwIf (start > maxWord - dataBase) (metadataError "SafeTensors range exceeds file")
    let dataSize ← Watched.sub fileSize dataBase
    throwIf (stop > dataSize) (metadataError "SafeTensors range exceeds file")
    let offset ← Watched.add dataBase start
    let size ← Watched.sub stop start
    return (offset, size)
  | _ => throw (metadataError "SafeTensors range needs two offsets")

def checkSize (shape : Shape) (dtype : DType) (size : UInt64) : Code Unit := do
  throwIf (shape.storageElementCount > maxWord / dtype.sizeOf)
    (metadataError "SafeTensors shape, dtype, and byte range disagree")
  let bytes ← Watched.mul shape.storageElementCount dtype.sizeOf
  throwIf (bytes ≠ size) (metadataError "SafeTensors shape, dtype, and byte range disagree")

def readTensor (relative : Text) (fileSize headerSize : UInt64) (name : Text) (value : JsonValue) :
    Code ManifestTensor := do
  let items ← access (value.require "shape" >>= JsonValue.asArray)
  let dimensions ← readDimensions items
  throwIf (dimensions = []) (metadataError "scalar SafeTensors are not supported")
  let (offset, size) ← readRange fileSize headerSize value
  let dtype ← access (value.require "dtype" >>= JsonValue.asString >>= parseSafeTensorDType)
  let shape ← mapError .std (Shape.ofDimensions dimensions)
  checkSize shape dtype size
  return { name := name, sourceFile := relative, offset := offset, size := size, dtype := dtype,
           shape := shape }

def readTensors (relative : Text) (fileSize headerSize : UInt64) :
    List (Text × JsonValue) → Code (List ManifestTensor)
  | [] => pure []
  | (name, value) :: entries =>
    if name = ascii "__metadata__" then readTensors relative fileSize headerSize entries
    else do
      let tensor ← readTensor relative fileSize headerSize name value
      let tensors ← readTensors relative fileSize headerSize entries
      return tensor :: tensors

/-- `std::sort`: some ordered permutation -/
structure SortBy {α : Type} (key : α → UInt64) where
  sort : List α → List α
  perm : ∀ as, (sort as).Perm as
  sorted : ∀ as, (sort as).Pairwise fun a b => key a ≤ key b

/-- merge sort is one -/
instance {α : Type} (key : α → UInt64) : Inhabited (SortBy key) where
  default :=
    { sort := fun as => as.mergeSort fun a b => key a ≤ key b
      perm := fun as => List.mergeSort_perm as _
      sorted := fun as => by
        have htrans : ∀ a b c : α, decide (key a ≤ key b) = true → decide (key b ≤ key c) = true →
            decide (key a ≤ key c) = true := fun a b c hab hbc =>
          decide_eq_true (UInt64.le_trans (of_decide_eq_true hab) (of_decide_eq_true hbc))
        have htotal : ∀ a b : α, (decide (key a ≤ key b) || decide (key b ≤ key a)) = true := fun a b => by
          rw [Bool.or_eq_true, decide_eq_true_eq, decide_eq_true_eq]
          exact UInt64.le_total (key a) (key b)
        exact (List.pairwise_mergeSort htrans htotal as).imp fun hab => of_decide_eq_true hab }

def checkRanges : List ManifestTensor → Code Unit
  | first :: second :: ranges => do
    let stop ← Watched.add first.offset first.size
    throwIf (stop > second.offset) (metadataError "SafeTensors tensor byte ranges overlap")
    checkRanges (second :: ranges)
  | _ => pure ()

def inspectFile (ranges : SortBy ManifestTensor.offset) (relative : Except MetadataError Text) (f : File) :
    Reader ImportError (List ManifestTensor) := do
  let relative ← access relative
  throwIf (f.size < 8) (metadataError "invalid SafeTensors file size")
  let headerSize ← readU64 (metadataError "cannot read SafeTensors header size")
  let available ← watch (Watched.sub f.size 8)
  throwIf (headerSize = 0 ∨ headerSize > maximumHeaderBytes ∨ headerSize > available)
    (metadataError "invalid SafeTensors header length")
  let header ← take headerSize.toNat (metadataError "truncated SafeTensors header")
  let root ← settle ((parseJson header).mapError ImportError.metadata)
  let entries ← access root.asObject
  let tensors ← watch (readTensors relative f.size headerSize entries)
  watch (checkRanges (ranges.sort tensors))
  return tensors

/-! ## what a step of the reader answers -/

section
variable {α β : Type} {P : α → Prop}

/-- `x` computes exactly, and throws or answers in `P` -/
def Answers (x : Code α) (P : α → Prop) : Prop := ∀ exact,
  wp x (fun r exact' => exact' = exact ∧ match r with
    | .ok a => P a
    | .error e => e.IsThrown) exact

theorem Answers.mono {x : Code α} {P' : α → Prop} (h : Answers x P) (hP : ∀ a, P a → P' a) :
    Answers x P' := by
  intro exact
  refine wp_mono (h exact) fun r exact' hr => ⟨hr.1, ?_⟩
  cases r with
  | ok a => exact hP a hr.2
  | error e => exact hr.2

theorem Answers.bind {x : Code α} {f : α → Code β} {P' : β → Prop} (h : Answers x P)
    (hf : ∀ a, P a → Answers (f a) P') : Answers (x >>= f) P' := by
  intro exact
  refine wp_seq (h exact) (fun a exact' ha => ?_) fun e exact' he => he
  obtain ⟨rfl, ha⟩ := ha
  exact hf a ha exact'

protected theorem Answers.pure {a : α} (h : P a) : Answers (pure a) P := fun _ => ⟨rfl, h⟩

theorem Answers.throwIf {c : Prop} [Decidable c] {what : String} {f : Unit → Code α}
    (h : ¬ c → Answers (f ()) P) : Answers (Fallible.throwIf c (metadataError what) >>= f) P := by
  intro exact
  rw [wp_bind, wp_throwIf]
  split
  · exact ⟨rfl, trivial⟩
  · next hc => exact h hc exact

theorem answers_access {r : Except MetadataError α} : Answers (access r) fun a => r = .ok a :=
  fun _ => wp_settle_mapError (fun _ ha => ⟨rfl, ha⟩) fun _ _ => ⟨rfl, trivial⟩

theorem answers_add {a b : UInt64} (h : a.toNat + b.toNat < 2 ^ 64) :
    Answers (Watched.add a b) fun c => c.toNat = a.toNat + b.toNat :=
  fun _ => Watched.wp_add h fun _ hc => ⟨rfl, hc⟩

theorem answers_sub {a b : UInt64} (h : b ≤ a) :
    Answers (Watched.sub a b) fun c => c.toNat = a.toNat - b.toNat :=
  fun _ => Watched.wp_sub h fun _ hc => ⟨rfl, hc⟩

theorem answers_mul {a b : UInt64} (h : a.toNat * b.toNat < 2 ^ 64) :
    Answers (Watched.mul a b) fun c => c.toNat = a.toNat * b.toNat :=
  fun _ => Watched.wp_mul h fun _ hc => ⟨rfl, hc⟩

end

theorem answers_readDimensions (items : List JsonValue) :
    Answers (readDimensions items) fun dimensions =>
      items.map JsonValue.asUInt64 = dimensions.map .ok := by
  induction items with
  | nil => exact Answers.pure rfl
  | cons item items ih =>
    refine answers_access.bind fun number hnumber => Answers.throwIf fun _ => ?_
    refine ih.bind fun dimensions h => Answers.pure ?_
    rw [List.map_cons, List.map_cons, hnumber, h]

/-! ## one tensor -/

/-- the entry declares this range of the data section, and its bytes lie in the file -/
structure DeclaresRange (fileSize headerSize : Nat) (value : JsonValue) (offset size : UInt64) : Prop where
  declared : ∃ first second start stop, value.require "data_offsets" >>= JsonValue.asArray = .ok [first, second] ∧
    first.asUInt64 = .ok start ∧ second.asUInt64 = .ok stop ∧
    offset.toNat = 8 + headerSize + start.toNat ∧ size.toNat = stop.toNat - start.toNat ∧ start < stop
  nonempty : 0 < size.toNat
  inside : offset.toNat + size.toNat ≤ fileSize

theorem answers_readRange {fileSize headerSize : UInt64} (hheader : 8 + headerSize.toNat ≤ fileSize.toNat)
    (value : JsonValue) : Answers (readRange fileSize headerSize value) fun range =>
      DeclaresRange fileSize.toNat headerSize.toNat value range.1 range.2 := by
  have hfile := UInt64.toNat_lt fileSize
  have h8 : (8 : UInt64).toNat = 8 := rfl
  refine answers_access.bind fun offsets hoffsets => ?_
  match offsets, hoffsets with
  | [first, second], hoffsets =>
    refine answers_access.bind fun start hstart => answers_access.bind fun stop hstop => ?_
    refine Answers.throwIf fun hlt => ?_
    refine (answers_add (by omega)).bind fun dataBase hdataBase => Answers.throwIf fun hmax => ?_
    have hle : dataBase ≤ fileSize := UInt64.le_iff_toNat_le.mpr (by omega)
    refine (answers_sub hle).bind fun dataSize hdataSize => Answers.throwIf fun hstop' => ?_
    have hadd : start.toNat + dataBase.toNat < 2 ^ 64 := Watched.exact_add (UInt64.not_lt.mp hmax)
    rw [UInt64.not_le] at hlt
    have hlt' := UInt64.lt_iff_toNat_lt.mp hlt
    have hstop'' := UInt64.le_iff_toNat_le.mp (UInt64.not_lt.mp hstop')
    refine (answers_add (by omega)).bind fun offset hoffset => ?_
    refine (answers_sub (UInt64.le_of_lt hlt)).bind fun size hsize => Answers.pure ?_
    refine ⟨⟨first, second, start, stop, hoffsets, hstart, hstop, ?_, hsize, hlt⟩, ?_, ?_⟩
    · rw [hoffset, hdataBase, h8]
    · show 0 < size.toNat
      omega
    · show offset.toNat + size.toNat ≤ fileSize.toNat
      omega
  | [], _ => exact fun _ => ⟨rfl, trivial⟩
  | [_], _ => exact fun _ => ⟨rfl, trivial⟩
  | _ :: _ :: _ :: _, _ => exact fun _ => ⟨rfl, trivial⟩

theorem answers_checkSize (shape : Shape) (dtype : DType) (size : UInt64) :
    Answers (checkSize shape dtype size) fun _ =>
      size.toNat = shape.storageElementCount.toNat * dtype.sizeOf.toNat := by
  refine Answers.throwIf fun hle => ?_
  refine (answers_mul (Watched.exact_mul (UInt64.not_lt.mp hle) dtype.sizeOf_ne_zero)).bind fun bytes hbytes => ?_
  have hlast : Answers (Fallible.throwIf (bytes ≠ size)
      (metadataError "SafeTensors shape, dtype, and byte range disagree")) fun _ => bytes = size := by
    intro exact
    rw [wp_throwIf]
    split
    · exact ⟨rfl, trivial⟩
    · next h => exact ⟨rfl, not_not.mp h⟩
  refine hlast.mono fun _ h => ?_
  rw [← h, hbytes]

theorem answers_ofDimensions (dimensions : List UInt64) :
    Answers (mapError .std (Shape.ofDimensions dimensions)) fun s =>
      s.dimensions = dimensions ∧ s.storageElementCount.toNat = Tensor.size dimensions := fun _ =>
  wp_mapError (Shape.wp_ofDimensions (fun _ hd hs => ⟨rfl, hd, hs⟩) fun _ => ⟨rfl, trivial⟩)

/-- what a returned tensor has to do with its entry of the header and with the file -/
structure Declares (fileSize headerSize : Nat) (entry : Text × JsonValue) (t : ManifestTensor) : Prop where
  name : t.name = entry.1
  shape : ∃ items, entry.2.require "shape" >>= JsonValue.asArray = .ok items ∧
    items.map JsonValue.asUInt64 = t.shape.dimensions.map .ok
  dtype : entry.2.require "dtype" >>= JsonValue.asString >>= parseSafeTensorDType = .ok t.dtype
  range : DeclaresRange fileSize headerSize entry.2 t.offset t.size
  size : t.size.toNat = (t.shape.dimensions.map UInt64.toNat).prod * t.dtype.sizeOf.toNat

theorem answers_readTensor {fileSize headerSize : UInt64} (hheader : 8 + headerSize.toNat ≤ fileSize.toNat)
    (relative name : Text) (value : JsonValue) :
    Answers (readTensor relative fileSize headerSize name value)
      (Declares fileSize.toNat headerSize.toNat (name, value)) := by
  refine answers_access.bind fun items hitems => ?_
  refine (answers_readDimensions items).bind fun dimensions hdimensions => Answers.throwIf fun _ => ?_
  refine (answers_readRange hheader value).bind fun range hrange => answers_access.bind fun dtype hdtype => ?_
  refine (answers_ofDimensions dimensions).bind fun shape hshape => ?_
  refine (answers_checkSize shape dtype range.2).bind fun _ hsize => Answers.pure ?_
  refine ⟨rfl, ⟨items, hitems, ?_⟩, hdtype, hrange, ?_⟩
  · rw [hshape.1]
    exact hdimensions
  · show range.2.toNat = Tensor.size shape.dimensions * _
    rw [hsize, hshape.2, hshape.1]

/-- the entries that declare tensors -/
def tensorEntries (entries : List (Text × JsonValue)) : List (Text × JsonValue) :=
  entries.filter fun entry => entry.1 ≠ ascii "__metadata__"

theorem answers_readTensors {fileSize headerSize : UInt64} (hheader : 8 + headerSize.toNat ≤ fileSize.toNat)
    (relative : Text) (entries : List (Text × JsonValue)) :
    Answers (readTensors relative fileSize headerSize entries) fun tensors =>
      List.Forall₂ (Declares fileSize.toNat headerSize.toNat) (tensorEntries entries) tensors := by
  induction entries with
  | nil => exact Answers.pure .nil
  | cons entry entries ih =>
    obtain ⟨name, value⟩ := entry
    unfold readTensors tensorEntries
    split
    · next h =>
      rw [List.filter_cons_of_neg (by simpa using h)]
      exact ih
    · next h =>
      rw [List.filter_cons_of_pos (by simpa using h)]
      refine (answers_readTensor hheader relative name value).bind fun tensor htensor => ?_
      exact ih.bind fun tensors htensors => Answers.pure (.cons htensor htensors)

/-! ## disjoint ranges -/

/-- the bytes of `a` come before those of `b` -/
def Before (a b : ManifestTensor) : Prop := a.offset.toNat + a.size.toNat ≤ b.offset.toNat

/-- neighbours that do not overlap, in the order of the offsets, leave no overlap at all -/
theorem answers_checkRanges {tensors : List ManifestTensor}
    (hsorted : tensors.Pairwise fun a b => a.offset ≤ b.offset)
    (hfits : ∀ t ∈ tensors, t.offset.toNat + t.size.toNat < 2 ^ 64) :
    Answers (checkRanges tensors) fun _ => tensors.Pairwise Before := by
  induction tensors with
  | nil => exact Answers.pure .nil
  | cons first tensors ih =>
    obtain ⟨hfirst, hsorted'⟩ := List.pairwise_cons.mp hsorted
    cases tensors with
    | nil => exact Answers.pure (List.pairwise_singleton ..)
    | cons second ranges =>
      refine (answers_add (hfits first List.mem_cons_self)).bind fun stop hstop => Answers.throwIf fun hle => ?_
      refine (ih hsorted' fun t ht => hfits t (List.mem_cons_of_mem _ ht)).mono fun _ h => ?_
      have hsecond : Before first second := by
        have := UInt64.le_iff_toNat_le.mp (UInt64.not_lt.mp hle)
        show first.offset.toNat + first.size.toNat ≤ second.offset.toNat
        omega
      refine List.pairwise_cons.mpr ⟨fun t ht => ?_, h⟩
      rcases List.mem_cons.mp ht with rfl | ht
      · exact hsecond
      · have hle' := (List.pairwise_cons.mp hsorted').1 t ht
        exact Nat.le_trans hsecond (UInt64.le_iff_toNat_le.mp hle')

/-- distinct tensors share no byte, in whatever order they stand -/
theorem pairwise_disjoint {tensors sorted : List ManifestTensor} (hperm : sorted.Perm tensors)
    (h : sorted.Pairwise Before) : tensors.Pairwise fun a b => Before a b ∨ Before b a :=
  hperm.pairwise (h.imp .inl) fun hab => hab.symm

/-! ## the whole file -/

/-- every tensor comes from an entry -/
theorem exists_declared {α β : Type} {R : α → β → Prop} {as : List α} {bs : List β}
    (h : List.Forall₂ R as bs) {b : β} (hb : b ∈ bs) : ∃ a ∈ as, R a b := by
  induction h with
  | nil => exact absurd hb List.not_mem_nil
  | cons hab h ih =>
    rcases List.mem_cons.mp hb with rfl | hb
    · exact ⟨_, List.mem_cons_self, hab⟩
    · obtain ⟨a, ha, hr⟩ := ih hb
      exact ⟨a, List.mem_cons_of_mem _ ha, hr⟩

/-- the header length, the header and its entries, as they stand in the file -/
structure IsHeader (bytes : List UInt8) (headerSize : UInt64) (entries : List (Text × JsonValue)) : Prop where
  stored : ∃ header data, bytes = writeU64 headerSize ++ (header ++ data) ∧
    header.length = headerSize.toNat ∧ IsText header (.object entries)

/-- what `inspectFile` promises of an accepted file -/
structure Inspected (f : File) (tensors : List ManifestTensor) : Prop where
  declared : ∃ headerSize entries, IsHeader f.bytes headerSize entries ∧
    List.Forall₂ (Declares f.bytes.length headerSize.toNat) (tensorEntries entries) tensors
  disjoint : tensors.Pairwise fun a b => Before a b ∨ Before b a

theorem File.toNat_size (f : File) : f.size.toNat = f.bytes.length := by
  have h := f.small
  exact UInt64.toNat_ofNat_of_lt' (by show f.bytes.length < 2 ^ 64; omega)

/-- arithmetic in the middle of reading -/
theorem wp_watch_answers {α : Type} {x : Code α} {P : α → Prop} {s : Stream}
    {Q : Except ImportError α → Stream → Prop} (h : Answers x P) (hok : ∀ a, P a → Q (.ok a) s)
    (herror : ∀ e, e.IsThrown → Q (.error e) s) : wp (watch x) Q s := by
  obtain ⟨rest, exact⟩ := s
  refine (wp_zoom ..).mpr (wp_mono (h exact) fun r exact' hr => ?_)
  obtain ⟨rfl, hr⟩ := hr
  cases r with
  | ok a => exact hok a hr
  | error e => exact herror e hr

theorem wp_inspectFile (ranges : SortBy ManifestTensor.offset) (relative : Except MetadataError Text)
    (f : File) : wp (inspectFile ranges relative f) (fun r s => s.exact = true ∧ match r with
      | .ok tensors => Inspected f tensors
      | .error e => e.IsThrown) ⟨f.bytes, true⟩ := by
  have hthrown : ∀ what, (metadataError what).IsThrown := fun _ => trivial
  have h8 : (8 : UInt64).toNat = 8 := rfl
  have hfile := File.toNat_size f
  show wp (access relative >>= _) _ _
  rw [wp_bind]
  refine wp_settle_mapError (fun relative _ => ?_) fun e _ => ⟨rfl, trivial⟩
  show wp (_ >>= _) _ _
  rw [wp_bind, wp_throwIf]
  split
  · exact ⟨rfl, hthrown _⟩
  next hsmall =>
  have hmin : (8 : UInt64) ≤ f.size := UInt64.not_lt.mp hsmall
  show wp (_ >>= _) _ _
  rw [wp_bind]
  refine (Reads.u64 _).wp (fun headerSize rest _ hrest => ?_) fun rest => ⟨rfl, hthrown _⟩
  show wp (_ >>= _) _ _
  rw [wp_bind]
  refine wp_watch_answers (answers_sub hmin) (fun available havailable => ?_) fun e he => ⟨rfl, he⟩
  show wp (_ >>= _) _ _
  rw [wp_bind, wp_throwIf]
  split
  · exact ⟨rfl, hthrown _⟩
  next hlength =>
  have hheader : 8 + headerSize.toNat ≤ f.size.toNat := by
    have hle := UInt64.le_iff_toNat_le.mp (UInt64.not_lt.mp fun h => hlength (.inr (.inr h)))
    have := UInt64.le_iff_toNat_le.mp hmin
    omega
  show wp (_ >>= _) _ _
  rw [wp_bind]
  refine (Reads.take _ _).wp (fun header data hlen hdata => ?_) fun rest => ⟨rfl, hthrown _⟩
  show wp (_ >>= _) _ _
  rw [wp_bind]
  refine wp_settle_mapError (fun root hroot => ?_) fun e he => ⟨rfl, (parseJson_iff header).2 e he⟩
  show wp (access root.asObject >>= _) _ _
  rw [wp_bind]
  refine wp_settle_mapError (fun entries hentries => ?_) fun e _ => ⟨rfl, trivial⟩
  obtain rfl := JsonValue.asObject_eq hentries
  show wp (_ >>= _) _ _
  rw [wp_bind]
  refine wp_watch_answers (answers_readTensors hheader relative entries) (fun tensors htensors => ?_)
    fun e he => ⟨rfl, he⟩
  rw [hfile] at htensors
  have hfits : ∀ t ∈ ranges.sort tensors, t.offset.toNat + t.size.toNat < 2 ^ 64 := by
    intro t ht
    obtain ⟨entry, -, hdeclares⟩ := exists_declared htensors ((ranges.perm tensors).mem_iff.mp ht)
    have hsmall := f.small
    have hinside := hdeclares.range.inside
    omega
  show wp (_ >>= _) _ _
  rw [wp_bind]
  refine wp_watch_answers (answers_checkRanges (ranges.sorted tensors) hfits) (fun _ hbefore => ?_)
    fun e he => ⟨rfl, he⟩
  refine ⟨rfl, ⟨headerSize, entries, ⟨header, data, ?_, hlen, ?_⟩, htensors⟩, ?_⟩
  · rw [← hdata]
    exact hrest
  · exact ((parseJson_iff header).1 _).mp hroot
  · exact pairwise_disjoint (ranges.perm tensors) hbefore

/-- Whatever the file holds, no computation wraps, and the outcome is an exception or the tensors
that the header declares. -/
theorem inspectFile_sound (ranges : SortBy ManifestTensor.offset)
    (relative : Except MetadataError Text) (f : File) :
    ((inspectFile ranges relative f).exec ⟨f.bytes, true⟩).2.exact = true ∧
    match ((inspectFile ranges relative f).exec ⟨f.bytes, true⟩).1 with
      | .ok tensors => Inspected f tensors
      | .error e => e.IsThrown := wp_inspectFile ranges relative f

end HyperMoE.Importer
