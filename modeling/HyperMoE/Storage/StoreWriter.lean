import HyperMoE.Storage.DiskLoader
import HyperMoE.Storage.IndexCodec

/-!
# Writing an expert store

`ExpertStore::create` and the constructor that opens what it wrote.

* `Directory`            the files of a model directory;
* `CreateAnswers`        what the system answers on the way;
* `addExpert`, `create`  the writer;
* `openStore`            the constructor, on a directory;
* `Keeps`, `Laid`        the data file while it is written;
* `create_roundtrip`     what was created is opened, and read back in each of the ways.

A write that the stream reports as good is complete; one that it does not leaves the file as it was.
-/

namespace HyperMoE.Storage

open Lib Lib.Fallible

/-! ## files -/

structure ExpertBlob where
  layerId : UInt32 := 0
  expertId : UInt32 := 0
  quantizationType : UInt32 := 0
  data : List UInt8
  deriving DecidableEq, Repr

structure Directory where
  made : Bool := false
  data : Option File := none
  index : Option File := none
  metadata : Option File := none
  manifest : Option File := none

/-- what the system answers while a store is created -/
structure CreateAnswers where
  makesDirectory : Bool := true
  opensData : Bool := true
  /-- the stream is good after the expert was written -/
  writesExpert : Nat → Bool := fun _ => true
  closesData : Bool := true
  opensIndex : Bool := true
  writesIndex : Bool := true
  opensMetadata : Bool := true
  writesMetadata : Bool := true

inductive CreateError where
  | storage (e : StorageError)
  | filesystem
  deriving DecidableEq

abbrev Creating := Fallible CreateError Directory

def storageError (what : String) : CreateError := .storage ⟨what⟩

def File.empty : File := ⟨[], by decide⟩

/-- no file has more bytes than a signed 64-bit number counts -/
def File.append (f : File) (bytes : List UInt8) : Option File :=
  if h : (f.bytes ++ bytes).length < 2 ^ 63 then some ⟨f.bytes ++ bytes, h⟩ else none

/-- a write to one of the files, and the check of its stream -/
def writeTo (get : Directory → Option File) (set : File → Directory → Directory) (good : Bool)
    (what : String) (bytes : List UInt8) : Creating Unit := do
  let d ← read
  match (get d).bind (·.append bytes) with
  | some f => do
    throwIf (good = false) (storageError what)
    update (set f)
  | none => throw (storageError what)

/-! ## create -/

def alignment : UInt64 := 4096

def alignUp (value : UInt64) : Except StorageError UInt64 :=
  if value > maxWord - (alignment - 1) then .error ⟨"expert data offset overflow"⟩
  else .ok ((value + alignment - 1) &&& ~~~ (alignment - 1))

/-- the locals of the loop -/
structure Writing where
  cursor : UInt64 := 0
  records : List ExpertRecord := []

def writeData (good : Bool) (bytes : List UInt8) : Creating Unit :=
  writeTo Directory.data (fun f d => { d with data := some f }) good "failed writing expert data" bytes

def zeroPage (count : UInt64) : List UInt8 := List.replicate count.toNat 0

def addExpert (answers : CreateAnswers) (i : Nat) (expert : ExpertBlob) (w : Writing) :
    Creating Writing := do
  throwIf (expert.data = []) (storageError "cannot store an empty expert")
  let offset ← settle ((alignUp w.cursor).mapError .storage)
  throwIf (expert.data.length > maxStream.toNat) (storageError "expert is too large for stream I/O")
  -- the padding and the data go through one stream, which is checked once
  writeData (answers.writesExpert i) (zeroPage (offset - w.cursor) ++ expert.data)
  let size := UInt64.ofNat expert.data.length
  return {
    cursor := offset + size
    records := w.records ++ [⟨expert.layerId, expert.expertId, offset, size,
      expert.quantizationType, crc32 expert.data⟩] }

/-- the constructor of the index, on its records -/
def indexOf (records : List ExpertRecord) : Creating ExpertIndex :=
  settle (((ExpertIndex.make records []).exec true).1.mapError .storage)

def saveIndex (answers : CreateAnswers) (i : ExpertIndex) : Creating Unit := do
  throwIf (answers.opensIndex = false) (storageError "cannot create expert index")
  update fun d => { d with index := some File.empty }
  writeTo Directory.index (fun f d => { d with index := some f }) answers.writesIndex
    "failed writing expert index" i.save

def saveMetadata (answers : CreateAnswers) (metadataJson : List UInt8) : Creating Unit := do
  throwIf (answers.opensMetadata = false) (storageError "failed writing metadata.json")
  update fun d => { d with metadata := some File.empty }
  writeTo Directory.metadata (fun f d => { d with metadata := some f }) answers.writesMetadata
    "failed writing metadata.json" metadataJson

def create (answers : CreateAnswers) (experts : List ExpertBlob) (metadataJson : List UInt8) :
    Creating Unit := do
  throwIf (experts = []) (storageError "cannot create an expert store without experts")
  throwIf (metadataJson = []) (storageError "metadata JSON must not be empty")
  let d ← read
  throwIf (d.data.isSome = true ∨ d.index.isSome = true ∨ d.metadata.isSome = true)
    (storageError "refusing to overwrite an existing expert store")
  throwIf (answers.makesDirectory = false) .filesystem
  update fun d => { d with made := true }
  throwIf (answers.opensData = false) (storageError "cannot create expert data file")
  update fun d => { d with data := some File.empty }
  let w ← forEach (addExpert answers) 0 {} experts
  throwIf (answers.closesData = false) (storageError "failed closing expert data file")
  let i ← indexOf w.records
  saveIndex answers i
  saveMetadata answers metadataJson

/-! ## the constructor -/

/-- `readStoreMetadata` -/
def readStoreMetadata (d : Directory) : Except StorageError (List UInt8) :=
  match d.metadata, d.manifest with
  | some f, _ => .ok f.bytes
  | none, some f => .ok f.bytes
  | none, none => .error ⟨"cannot open model metadata"⟩

/-- the members, and the body -/
def ExpertStore.make (dataPath : String) (index : ExpertIndex) (data : File)
    (metadataJson : List UInt8) : Except StorageError ExpertStore :=
  match h : checkStore dataPath index data metadataJson with
  | .ok () => .ok ⟨dataPath, index, data, metadataJson, h⟩
  | .error e => .error e

def openStore (d : Directory) : Except StorageError ExpertStore := do
  let indexFile ← d.index.elim (.error ⟨"cannot open expert index"⟩) .ok
  let index ← (load "experts.index" indexFile).1
  let data ← d.data.elim (.error ⟨"cannot open mapped file"⟩) .ok
  let metadataJson ← readStoreMetadata d
  ExpertStore.make "experts.bin" index data metadataJson

/-! ## offsets -/

/-- the mask clears the part below the alignment -/
theorem toNat_mask (x : UInt64) : (x &&& ~~~ (alignment - 1)).toNat = x.toNat / 4096 * 4096 := by
  have hmask : (~~~ (alignment - 1)).toNat = 2 ^ 64 - 2 ^ 12 := rfl
  have hx := x.toNat_lt
  rw [UInt64.toNat_and, hmask]
  refine Nat.eq_of_testBit_eq fun i => ?_
  have hhigh : (2 ^ 64 - 2 ^ 12).testBit i = (decide (12 ≤ i) && decide (i < 64)) := by
    have hshift : 2 ^ 64 - 2 ^ 12 = (2 ^ 52 - 1) * 2 ^ 12 := by norm_num
    rw [hshift, Nat.testBit_mul_two_pow, Nat.testBit_two_pow_sub_one]
    by_cases hi : 12 ≤ i
    · have hiff : i - 12 < 52 ↔ i < 64 := by omega
      simp [hi, hiff]
    · simp [hi]
  have hpage : x.toNat / 4096 * 4096 = (x.toNat >>> 12) * 2 ^ 12 := by
    rw [Nat.shiftRight_eq_div_pow]
    rfl
  rw [hpage, Nat.testBit_and, hhigh, Nat.testBit_mul_two_pow, Nat.testBit_shiftRight]
  by_cases hi : 12 ≤ i
  · rw [Nat.add_sub_cancel' hi]
    by_cases hlt : i < 64
    · simp [hi, hlt]
    · have hzero : x.toNat.testBit i = false :=
        Nat.testBit_lt_two_pow (Nat.lt_of_lt_of_le hx (Nat.pow_le_pow_right (by norm_num) (by omega)))
      simp [hzero]
  · simp [hi]

theorem alignUp_eq {value offset : UInt64} (h : alignUp value = .ok offset) :
    offset.toNat = (value.toNat + 4095) / 4096 * 4096 := by
  unfold alignUp at h
  split at h
  · cases h
  next hle =>
  obtain rfl := Except.ok.inj h
  have hbound : value.toNat ≤ 2 ^ 64 - 4096 := by
    have hle' := UInt64.le_iff_toNat_le.mp (UInt64.not_lt.mp hle)
    exact hle'
  have hsum : (value + alignment - 1).toNat = value.toNat + 4095 := by
    have hassoc : value + alignment - 1 = value + 4095 := by
      rw [UInt64.sub_eq_add_neg, UInt64.add_assoc]
      rfl
    rw [hassoc, UInt64.toNat_add]
    exact Nat.mod_eq_of_lt (show value.toNat + 4095 < 2 ^ 64 by omega)
  rw [toNat_mask, hsum]

/-! ## the data file while it is written -/

theorem append_bytes {f f' : File} {bytes : List UInt8} (h : f.append bytes = some f') :
    f'.bytes = f.bytes ++ bytes := by
  unfold File.append at h
  split at h
  · rw [← Option.some.inj h]
  · cases h

theorem gives_writeTo {get : Directory → Option File} {set : File → Directory → Directory}
    {good : Bool} {what : String} {bytes : List UInt8} {d d' : Directory} {u : Unit}
    (h : Gives (writeTo get set good what bytes) d u d') :
    ∃ f f', get d = some f ∧ f'.bytes = f.bytes ++ bytes ∧ d' = set f' d := by
  unfold writeTo at h
  rw [gives_read_bind] at h
  cases happend : (get d).bind (·.append bytes) with
  | none =>
    rw [happend] at h
    exact nomatch congrArg Prod.fst h
  | some f' =>
    rw [happend] at h
    obtain ⟨f, hget, hf'⟩ := Option.bind_eq_some_iff.mp happend
    obtain ⟨-, h⟩ := gives_throwIf_bind.mp h
    exact ⟨f, f', hget, append_bytes hf', (gives_update.mp h).symm⟩

/-- the record of a blob, and its bytes where the record says -/
structure Keeps (bytes : List UInt8) (blob : ExpertBlob) (r : ExpertRecord) : Prop where
  layer : r.layer_id = blob.layerId
  expert : r.expert_id = blob.expertId
  aligned : 4096 ∣ r.offset.toNat
  size : r.size.toNat = blob.data.length
  nonempty : blob.data ≠ []
  inside : r.offset.toNat + r.size.toNat ≤ bytes.length
  stored : (bytes.drop r.offset.toNat).take r.size.toNat = blob.data
  checksum : r.checksum = crc32 blob.data

theorem Keeps.append {bytes : List UInt8} {blob : ExpertBlob} {r : ExpertRecord}
    (h : Keeps bytes blob r) (more : List UInt8) : Keeps (bytes ++ more) blob r := by
  have hinside := h.inside
  refine { h with inside := ?_, stored := ?_ }
  · rw [List.length_append]
    omega
  · rw [List.drop_append_of_le_length (by omega), List.take_append_of_le_length, h.stored]
    rw [List.length_drop]
    omega

structure Laid (blobs : List ExpertBlob) (w : Writing) (f : File) : Prop where
  length : f.bytes.length = w.cursor.toNat
  keeps : List.Forall₂ (Keeps f.bytes) blobs w.records
  apart : w.records.Pairwise fun a b => a.offset.toNat + a.size.toNat ≤ b.offset.toNat

theorem laid_nil : Laid [] {} File.empty := ⟨rfl, .nil, List.Pairwise.nil⟩

theorem Laid.ends {blobs : List ExpertBlob} {w : Writing} {f : File} (h : Laid blobs w f)
    {r : ExpertRecord} (hr : r ∈ w.records) : r.offset.toNat + r.size.toNat ≤ w.cursor.toNat := by
  have hkeeps := h.keeps
  rw [List.forall₂_iff_get] at hkeeps
  obtain ⟨n, hn⟩ := List.mem_iff_get.mp hr
  have hlt : n.1 < blobs.length := by
    rw [hkeeps.1]
    exact n.2
  have hinside := (hkeeps.2 n.1 hlt n.2).inside
  rw [← h.length, ← hn]
  exact hinside

theorem Laid.add {answers : CreateAnswers} {blobs : List ExpertBlob} {w w' : Writing} {f : File}
    {d d' : Directory} {i : Nat} {blob : ExpertBlob} (h : Laid blobs w f) (hd : d.data = some f)
    (hadd : Gives (addExpert answers i blob w) d w' d') :
    ∃ f', d' = { d with data := some f' } ∧ Laid (blobs ++ [blob]) w' f' := by
  unfold addExpert at hadd
  obtain ⟨hne, hadd⟩ := gives_throwIf_bind.mp hadd
  obtain ⟨offset, hoffset, hadd⟩ := gives_settle_bind.mp hadd
  obtain ⟨hlarge, hadd⟩ := gives_throwIf_bind.mp hadd
  obtain ⟨u, d₁, hwrite, hadd⟩ := gives_bind.mp hadd
  obtain ⟨rfl, rfl⟩ := gives_pure.mp hadd
  obtain ⟨g, f', hg, hbytes, rfl⟩ := gives_writeTo hwrite
  obtain rfl := Option.some.inj (hd.symm.trans hg)
  refine ⟨f', rfl, ?_⟩
  have hup := alignUp_eq (Outcome.mapError_eq_ok.mp hoffset)
  have hle : w.cursor ≤ offset := UInt64.le_iff_toNat_le.mpr (by omega)
  have hpad : (zeroPage (offset - w.cursor)).length = offset.toNat - w.cursor.toNat := by
    unfold zeroPage
    rw [List.length_replicate, UInt64.toNat_sub_of_le _ _ hle]
  have hlen : f'.bytes.length = offset.toNat + blob.data.length := by
    rw [hbytes, List.length_append, List.length_append, hpad, h.length]
    have := UInt64.le_iff_toNat_le.mp hle
    omega
  have hsmall := f'.small
  have hsize : (UInt64.ofNat blob.data.length).toNat = blob.data.length :=
    UInt64.toNat_ofNat_of_lt' (show blob.data.length < 2 ^ 64 by omega)
  have hcursor : (offset + UInt64.ofNat blob.data.length).toNat =
      offset.toNat + blob.data.length := by
    rw [UInt64.toNat_add, hsize]
    exact Nat.mod_eq_of_lt (by omega)
  -- the blob stands behind the old bytes and the padding
  have hfront : f.bytes ++ zeroPage (offset - w.cursor) = f'.bytes.take offset.toNat := by
    rw [hbytes, ← List.append_assoc, List.take_append_of_le_length, List.take_of_length_le]
    · rw [List.length_append, hpad, h.length]
      have := UInt64.le_iff_toNat_le.mp hle
      omega
    · rw [List.length_append, hpad, h.length]
      omega
  have hback : f'.bytes.drop offset.toNat = blob.data := by
    have hsplit : f'.bytes = f'.bytes.take offset.toNat ++ blob.data := by
      rw [← hfront, hbytes, List.append_assoc]
    have htake : (f'.bytes.take offset.toNat).length = offset.toNat := by
      rw [List.length_take]
      omega
    rw [hsplit, List.drop_append_of_le_length (Nat.le_of_eq htake.symm),
      List.drop_of_length_le (Nat.le_of_eq htake), List.nil_append]
  constructor
  · exact hlen.trans hcursor.symm
  · refine List.rel_append (h.keeps.imp fun b r hk => ?_) (.cons ?_ .nil)
    · rw [hbytes]
      exact hk.append _
    · exact
        { layer := rfl
          expert := rfl
          aligned := ⟨(w.cursor.toNat + 4095) / 4096, by rw [hup, Nat.mul_comm]⟩
          size := hsize
          nonempty := hne
          inside := by
            rw [hlen, hsize]
          stored := by
            rw [hback, hsize]
            exact List.take_length
          checksum := rfl }
  · refine List.pairwise_append.mpr ⟨h.apart, List.pairwise_singleton _ _, fun a ha b hb => ?_⟩
    obtain rfl := List.mem_singleton.mp hb
    have hend := h.ends ha
    have := UInt64.le_iff_toNat_le.mp hle
    show _ ≤ offset.toNat
    omega

/-! ## what was created -/

/-- the files after a call that returned -/
structure Created (blobs : List ExpertBlob) (metadataJson : List UInt8) (d : Directory) : Prop where
  someBlobs : blobs ≠ []
  someMetadata : metadataJson ≠ []
  metadata : ∃ f, d.metadata = some f ∧ f.bytes = metadataJson
  files : ∃ (w : Writing) (data index : File) (i : ExpertIndex), d.data = some data ∧
    d.index = some index ∧ Laid blobs w data ∧ i.records = w.records ∧ i.projections = [] ∧
    index.bytes = i.save

theorem indexOf_eq {records : List ExpertRecord} {i : ExpertIndex} {d d' : Directory}
    (h : Gives (indexOf records) d i d') : i.records = records ∧ i.projections = [] ∧ d = d' := by
  obtain ⟨hmake, rfl⟩ := gives_settle.mp h
  have hspec := (@wp_make true records []).2 i
  obtain ⟨hrecords, hprojections⟩ := hspec.mp (Outcome.mapError_eq_ok.mp hmake)
  exact ⟨hrecords, hprojections, rfl⟩

theorem create_created {answers : CreateAnswers} {blobs : List ExpertBlob} {metadataJson : List UInt8}
    {d d' : Directory} {u : Unit} (h : Gives (create answers blobs metadataJson) d u d') :
    Created blobs metadataJson d' := by
  unfold create at h
  obtain ⟨hblobs, h⟩ := gives_throwIf_bind.mp h
  obtain ⟨hmetadata, h⟩ := gives_throwIf_bind.mp h
  obtain ⟨-, h⟩ := gives_throwIf_bind.mp (gives_read_bind.mp h)
  obtain ⟨-, h⟩ := gives_throwIf_bind.mp h
  obtain ⟨-, h⟩ := gives_throwIf_bind.mp (gives_update_bind.mp h)
  obtain ⟨w, d₁, hloop, h⟩ := gives_bind.mp (gives_update_bind.mp h)
  obtain ⟨f, hf, hlaid⟩ := gives_forEach
    (I := fun seen w (d : Directory) => ∃ f, d.data = some f ∧ Laid seen w f)
    (fun seen blob todo w d w' d' _ hI hadd => by
      obtain ⟨f, hf, hlaid⟩ := hI
      obtain ⟨f', rfl, hlaid'⟩ := hlaid.add hf hadd
      exact ⟨f', rfl, hlaid'⟩) ⟨File.empty, rfl, laid_nil⟩ hloop
  obtain ⟨-, h⟩ := gives_throwIf_bind.mp h
  obtain ⟨i, d₂, hindex, h⟩ := gives_bind.mp h
  obtain ⟨hrecords, hprojections, rfl⟩ := indexOf_eq hindex
  obtain ⟨u₁, d₃, hsave, h⟩ := gives_bind.mp h
  unfold saveIndex at hsave
  obtain ⟨-, hsave⟩ := gives_throwIf_bind.mp hsave
  obtain ⟨empty, index, hempty, hbytes, rfl⟩ := gives_writeTo (gives_update_bind.mp hsave)
  obtain rfl := Option.some.inj hempty
  unfold saveMetadata at h
  obtain ⟨-, h⟩ := gives_throwIf_bind.mp h
  obtain ⟨empty, metadata, hempty, hbytes', rfl⟩ := gives_writeTo (gives_update_bind.mp h)
  obtain rfl := Option.some.inj hempty
  exact ⟨hblobs, hmetadata, ⟨metadata, rfl, hbytes'⟩,
    ⟨w, f, index, i, hf, rfl, hlaid, hrecords, hprojections, hbytes⟩⟩

/-! ## what is opened -/

theorem mem_of_forall₂ {α β : Type} {R : α → β → Prop} {as : List α} {bs : List β}
    (h : List.Forall₂ R as bs) : (∀ a ∈ as, ∃ b ∈ bs, R a b) ∧ ∀ b ∈ bs, ∃ a ∈ as, R a b := by
  induction h with
  | nil => exact ⟨fun a ha => (nomatch ha), fun b hb => nomatch hb⟩
  | @cons a b as bs hab _ ih =>
    constructor
    · intro x hx
      rcases List.mem_cons.mp hx with rfl | hx
      · exact ⟨b, List.mem_cons_self, hab⟩
      · obtain ⟨y, hy, hxy⟩ := ih.1 x hx
        exact ⟨y, List.mem_cons_of_mem b hy, hxy⟩
    · intro y hy
      rcases List.mem_cons.mp hy with rfl | hy
      · exact ⟨a, List.mem_cons_self, hab⟩
      · obtain ⟨x, hx, hxy⟩ := ih.2 y hy
        exact ⟨x, List.mem_cons_of_mem a hx, hxy⟩

/-- the store has the blobs, and nothing else -/
structure Holds (s : ExpertStore) (blobs : List ExpertBlob) : Prop where
  keeps : List.Forall₂ (Keeps s.data.bytes) blobs s.index.records
  apart : s.index.records.Pairwise fun a b => a.offset.toNat + a.size.toNat ≤ b.offset.toNat

theorem openStore_created {blobs : List ExpertBlob} {metadataJson : List UInt8} {d : Directory}
    (h : Created blobs metadataJson d) :
    ∃ s, openStore d = .ok s ∧ s.metadataJson = metadataJson ∧ Holds s blobs := by
  obtain ⟨w, data, index, i, hdata, hindex, hlaid, hrecords, hprojections, hbytes⟩ := h.files
  obtain ⟨f, hf, hjson⟩ := h.metadata
  have hload : (load "experts.index" index).1 = .ok i := by
    refine (load_iff _ index i).mpr ⟨_, .inr ⟨rfl, hprojections⟩, ?_⟩
    rw [hbytes, save_eq, if_pos hprojections]
  have hkeeps := hlaid.keeps
  rw [← hrecords] at hkeeps
  have hinside : ∀ r ∈ i.records, ¬ outOfBounds data.size r.offset r.size := by
    intro r hr
    obtain ⟨blob, -, hk⟩ := (mem_of_forall₂ hkeeps).2 r hr
    exact not_outOfBounds.mpr hk.inside
  have hnonempty : data.bytes ≠ [] := by
    obtain ⟨blob, hblob⟩ := List.exists_mem_of_ne_nil _ h.someBlobs
    obtain ⟨r, -, hk⟩ := (mem_of_forall₂ hkeeps).1 blob hblob
    intro hnil
    have hstored := hk.stored
    rw [hnil, List.drop_nil, List.take_nil] at hstored
    exact hk.nonempty hstored.symm
  have hchecked : checkStore "experts.bin" i data metadataJson = .ok () := by
    unfold checkStore
    rw [if_neg hnonempty, if_neg h.someMetadata, if_neg]
    rintro ⟨r, hr, hout⟩
    exact hinside r hr hout
  have hmake : ExpertStore.make "experts.bin" i data metadataJson =
      .ok ⟨"experts.bin", i, data, metadataJson, hchecked⟩ := by
    unfold ExpertStore.make
    split
    · rfl
    · next e he => exact nomatch hchecked.symm.trans he
  refine ⟨⟨"experts.bin", i, data, metadataJson, hchecked⟩, ?_, rfl, hkeeps, hrecords ▸ hlaid.apart⟩
  unfold openStore readStoreMetadata
  rw [hindex, hdata, hf]
  show (load "experts.index" index).1 >>= _ = _
  rw [hload]
  show ExpertStore.make "experts.bin" i data f.bytes = _
  rw [hjson, hmake]

/-! ## what is read -/

section
variable {s : ExpertStore} {blobs : List ExpertBlob} {blob : ExpertBlob} {r : ExpertRecord}

theorem Holds.find (h : Holds s blobs) (hb : blob ∈ blobs) :
    ∃ r, s.index.find blob.layerId blob.expertId = some r ∧ Keeps s.data.bytes blob r := by
  obtain ⟨r, hr, hk⟩ := (mem_of_forall₂ h.keeps).1 blob hb
  exact ⟨r, ((indexSound s.index).find _ _ r).mpr ⟨hr, hk.layer, hk.expert⟩, hk⟩

theorem Holds.find_none (h : Holds s blobs) {l e : UInt32}
    (habsent : ∀ blob ∈ blobs, (blob.layerId, blob.expertId) ≠ (l, e)) : s.index.find l e = none := by
  cases hfind : s.index.find l e with
  | none => rfl
  | some r =>
    obtain ⟨hr, rfl, rfl⟩ := ((indexSound s.index).find l e r).mp hfind
    obtain ⟨blob, hb, hk⟩ := (mem_of_forall₂ h.keeps).2 r hr
    exact absurd (Prod.ext hk.layer.symm hk.expert.symm) (habsent blob hb)

theorem toNat_maxStream : maxStream.toNat = 2 ^ 63 - 1 := by decide +kernel

/-- the checksum of the bytes is the one in the record -/
theorem checked_stored (hk : Keeps s.data.bytes blob r) (v : Bool) (what : String) (span : Span) :
    ExpertStore.checked (s.data.read ⟨r.offset.toNat, r.size.toNat⟩) r.checksum v what span =
      .ok span := by
  have hcrc : crc32 (s.data.read ⟨r.offset.toNat, r.size.toNat⟩) = r.checksum := by
    rw [hk.checksum]
    exact congrArg crc32 hk.stored
  unfold ExpertStore.checked
  rw [if_neg fun hv => hv.2 hcrc]

theorem Holds.readExpert (h : Holds s blobs) (hb : blob ∈ blobs) (v : Bool) :
    s.readExpert {} blob.layerId blob.expertId v = .ok blob.data := by
  obtain ⟨r, hfind, hk⟩ := h.find hb
  have hsmall := s.data.small
  have hinside := hk.inside
  have hstream : ¬ (r.offset > maxStream ∨ r.size > maxStream) := by
    rintro (hgt | hgt)
    · have hgt' := UInt64.lt_iff_toNat_lt.mp hgt
      rw [toNat_maxStream] at hgt'
      omega
    · have hgt' := UInt64.lt_iff_toNat_lt.mp hgt
      rw [toNat_maxStream] at hgt'
      omega
  have hbounds : ¬ (({} : ReadAnswers).reads = false ∨ outOfBounds s.data.size r.offset r.size) := by
    rintro (hno | hout)
    · exact nomatch hno
    · exact not_outOfBounds.mpr hinside hout
  unfold ExpertStore.readExpert
  simp only [hfind, if_neg hstream, if_neg hbounds, checked_stored hk]
  exact congrArg Except.ok hk.stored

theorem Holds.mappedExpert (h : Holds s blobs) (hb : blob ∈ blobs) (v : Bool) :
    ∃ span, s.mappedExpert blob.layerId blob.expertId v = .ok span ∧ s.data.read span = blob.data := by
  obtain ⟨r, hfind, hk⟩ := h.find hb
  refine ⟨⟨r.offset.toNat, r.size.toNat⟩, ?_, hk.stored⟩
  unfold ExpertStore.mappedExpert
  simp only [hfind, view_of_le hk.inside]
  exact checked_stored hk v _ _

theorem Holds.load (h : Holds s blobs) (hb : blob ∈ blobs) (mode : DiskReadMode) :
    ∃ r, ({ store := s, mode := mode } : DiskLoader).load {} blob.layerId blob.expertId =
      .ok ⟨r, blob.data⟩ := by
  obtain ⟨r, hfind, hk⟩ := h.find hb
  refine ⟨r, ?_⟩
  unfold DiskLoader.load
  cases mode with
  | RangeRead => simp only [hfind, h.readExpert hb, Except.map]
  | MemoryMap =>
    obtain ⟨span, hspan, hread⟩ := h.mappedExpert hb true
    simp only [hfind, hspan, Except.map, hread]

end

/-- every blob is read back in each of the ways, and everything else is absent -/
structure ReadsBack (s : ExpertStore) (blobs : List ExpertBlob) : Prop where
  aligned : ∀ r ∈ s.index.records, 4096 ∣ r.offset.toNat
  apart : s.index.records.Pairwise fun a b => a.offset.toNat + a.size.toNat ≤ b.offset.toNat
  inside : ∀ r ∈ s.index.records, r.offset.toNat + r.size.toNat ≤ s.data.bytes.length
  readExpert : ∀ blob ∈ blobs, ∀ validateChecksum,
    s.readExpert {} blob.layerId blob.expertId validateChecksum = .ok blob.data
  mappedExpert : ∀ blob ∈ blobs, ∀ validateChecksum, ∃ span,
    s.mappedExpert blob.layerId blob.expertId validateChecksum = .ok span ∧
      s.data.read span = blob.data
  load : ∀ blob ∈ blobs, ∀ mode, ∃ r,
    ({ store := s, mode := mode } : DiskLoader).load {} blob.layerId blob.expertId = .ok ⟨r, blob.data⟩
  absent : ∀ l e, (∀ blob ∈ blobs, (blob.layerId, blob.expertId) ≠ (l, e)) →
    (∀ answers v, s.readExpert answers l e v = .error ⟨"expert is not present in the index"⟩) ∧
    (∀ v, s.mappedExpert l e v = .error ⟨"expert is not present in the index"⟩) ∧
    ∀ mode answers, ({ store := s, mode := mode } : DiskLoader).load answers l e =
      .error ⟨"requested expert does not exist"⟩

theorem Holds.readsBack {s : ExpertStore} {blobs : List ExpertBlob} (h : Holds s blobs) :
    ReadsBack s blobs where
  aligned r hr := by
    obtain ⟨blob, -, hk⟩ := (mem_of_forall₂ h.keeps).2 r hr
    exact hk.aligned
  apart := h.apart
  inside r hr := by
    obtain ⟨blob, -, hk⟩ := (mem_of_forall₂ h.keeps).2 r hr
    exact hk.inside
  readExpert blob hb := h.readExpert hb
  mappedExpert blob hb := h.mappedExpert hb
  load blob hb := h.load hb
  absent l e habsent := by
    have hnone := h.find_none habsent
    refine ⟨fun answers v => ?_, fun v => ?_, fun mode answers => ?_⟩
    · unfold ExpertStore.readExpert
      rw [hnone]
    · unfold ExpertStore.mappedExpert
      rw [hnone]
    · unfold DiskLoader.load
      simp only [hnone]

/-- what was created is opened, and read back in each of the ways -/
theorem create_roundtrip (answers : CreateAnswers) (blobs : List ExpertBlob)
    (metadataJson : List UInt8) (d d' : Directory)
    (h : (create answers blobs metadataJson).exec d = (.ok (), d')) :
    ∃ s, openStore d' = .ok s ∧ s.metadataJson = metadataJson ∧ ReadsBack s blobs := by
  obtain ⟨s, hopen, hjson, hholds⟩ := openStore_created (create_created h)
  exact ⟨s, hopen, hjson, hholds.readsBack⟩

/-- two experts of different layers, of different sizes -/
def twoBlobs : List ExpertBlob :=
  [{ layerId := 1, expertId := 2, data := [1, 2, 3] }, { quantizationType := 1, data := [4, 5] }]

theorem create_roundtrip_two : ∃ d', (create {} twoBlobs [0x7b, 0x7d]).exec {} = (.ok (), d') ∧
    ∃ s, openStore d' = .ok s ∧ s.metadataJson = [0x7b, 0x7d] ∧ ReadsBack s twoBlobs := by
  have hok : ((create {} twoBlobs [0x7b, 0x7d]).exec {}).1 = .ok () := by
    decide +kernel
  have hpair : ∀ p : Except CreateError Unit × Directory, p.1 = .ok () → p = (.ok (), p.2) :=
    fun p hp => Prod.ext hp rfl
  exact ⟨_, hpair _ hok, create_roundtrip _ _ _ _ _ (hpair _ hok)⟩

end HyperMoE.Storage
