import HyperMoE.Memory.TransferManager

/-!
# One turn of a worker

What the `try` block of `workerLoop` hands over, and what it gives back to the backend, whichever of
its calls throws.

* `Supplies`           the bytes that a request supplies for its expert;
* `Intact`             a result with these bytes, in one buffer of the destination's kind;
* `loadSource_supplies`   the first half has checked the source;
* `Tidy`               the locals know every handle that is open;
* `wp_tryTransfer`     the second half returns an intact result or throws, and every handle that it
                       made is destroyed.
-/

namespace HyperMoE.Memory

open Lib Lib.Fallible Storage

/-! ## what is asked of a turn -/

/-- the request has the bytes of the record, in a buffer that a copy may read -/
structure Supplies (env : Environment) (r : TransferRequest) (record : Storage.ExpertRecord)
    (bytes : Bytes) : Prop where
  found : env.index.find r.layerId r.expertId = some record
  sized : bytes.length = record.size.toNat
  source : match r.source with
    | .Nvme => bytes = env.loader.store.stored record
    | .Ram => r.hostBuffer = some bytes
    | .PinnedRam => ∃ p, r.sourcePinnedBuffer = some p ∧ p.bytes = bytes
    | .Vram => ∃ d, r.sourceDeviceBuffer = some d ∧ d.bytes = bytes ∧
        d.backend = env.backend.address

/-- one buffer, of the kind of the tier, has the bytes -/
def HandsOver (env : Environment) (tier : MemoryTier) (bytes : Bytes) (result : TransferResult) :
    Prop :=
  match tier with
  | .Ram => result.buffer = some bytes ∧ result.pinnedBuffer = none ∧ result.deviceBuffer = none
  | .PinnedRam => result.buffer = none ∧ (∃ p, result.pinnedBuffer = some p ∧ p.bytes = bytes) ∧
      result.deviceBuffer = none
  | .Vram => result.buffer = none ∧ result.pinnedBuffer = none ∧
      ∃ d, result.deviceBuffer = some d ∧ d.bytes = bytes ∧ d.backend = env.backend.address
  | .Nvme => False

structure Intact (env : Environment) (r : TransferRequest) (result : TransferResult) : Prop where
  status : result.status = .Completed
  delivers : ∃ bytes, Supplies env r result.record bytes ∧ HandsOver env r.destination bytes result

variable {env : Environment} {answers : Answers} {r : TransferRequest} {l : Loaded}
  {s s₀ : Streams}

/-! ## the source -/

theorem sized_eq_ok {α : Type} {x : Option α} {size : α → Nat} {record : Storage.ExpertRecord}
    {what : String} {a : α} (h : sized x size record what = .ok a) :
    x = some a ∧ size a = record.size.toNat := by
  unfold sized at h
  cases x with
  | none => exact nomatch h
  | some b =>
    dsimp only at h
    split at h
    · exact nomatch h
    · next hsize =>
      obtain rfl := Except.ok.inj h
      exact ⟨rfl, not_not.mp hsize⟩

/-- the device that is read is one of the manager's backend -/
def Loaded.Own (env : Environment) (l : Loaded) : Prop :=
  ∀ d, l.source = .device d → d.backend = env.backend.address

theorem loadSource_supplies (h : loadSource env answers r = .ok l) :
    Supplies env r l.record l.source.bytes ∧ l.Own env := by
  unfold loadSource at h
  cases hsource : r.source with
  | Nvme =>
    simp only [hsource] at h
    obtain ⟨loaded, hload, h⟩ := Outcome.bind_eq_ok.mp h
    obtain ⟨_, -, h⟩ := Outcome.bind_eq_ok.mp h
    obtain rfl := Except.ok.inj h
    obtain ⟨hfound, hbytes⟩ := DiskLoader.load_bytes (Outcome.mapError_eq_ok.mp hload)
    refine ⟨⟨hfound, ?_, ?_⟩, fun d hd => nomatch hd⟩
    · show loaded.bytes.length = _
      rw [hbytes]
      exact ExpertStore.length_stored hfound
    · rw [hsource]
      exact hbytes
  | Ram =>
    simp only [hsource] at h
    cases hfind : env.index.find r.layerId r.expertId with
    | none => simp only [hfind] at h; cases h
    | some record =>
      simp only [hfind] at h
      obtain ⟨bytes, hbytes, h⟩ := Outcome.bind_eq_ok.mp h
      obtain rfl := Except.ok.inj h
      obtain ⟨hsome, hsize⟩ := sized_eq_ok hbytes
      exact ⟨⟨hfind, hsize, by rw [hsource]; exact hsome⟩, fun d hd => nomatch hd⟩
  | PinnedRam =>
    simp only [hsource] at h
    cases hfind : env.index.find r.layerId r.expertId with
    | none => simp only [hfind] at h; cases h
    | some record =>
      simp only [hfind] at h
      obtain ⟨p, hp, h⟩ := Outcome.bind_eq_ok.mp h
      obtain rfl := Except.ok.inj h
      obtain ⟨hsome, hsize⟩ := sized_eq_ok hp
      exact ⟨⟨hfind, hsize, by rw [hsource]; exact ⟨p, hsome, rfl⟩⟩, fun d hd => nomatch hd⟩
  | Vram =>
    simp only [hsource] at h
    cases hfind : env.index.find r.layerId r.expertId with
    | none => simp only [hfind] at h; cases h
    | some record =>
      simp only [hfind] at h
      obtain ⟨d, hd, h⟩ := Outcome.bind_eq_ok.mp h
      obtain ⟨hown, h⟩ := Outcome.throwIf_bind_eq_ok.mp h
      obtain rfl := Except.ok.inj h
      obtain ⟨hsome, hsize⟩ := sized_eq_ok hd
      refine ⟨⟨hfind, hsize, by rw [hsource]; exact ⟨d, hsome, rfl, not_not.mp hown⟩⟩, ?_⟩
      rintro d' ⟨⟩
      exact not_not.mp hown

/-! ## handles -/

/-- the handles that are open now: those that were, and the ones of the locals -/
structure Holds (s₀ s : Streams) : Prop where
  streams : s.openStreams = s₀.openStreams + if s.stream && s.ownsStream then 1 else 0
  events : s.openEvents = s₀.openEvents + if s.completion then 1 else 0

/-- the code throws with handles that the locals know, or returns `P` with none -/
def Tidy {α : Type} (P : α → Prop) (s₀ : Streams) (o : Except Exn α) (s : Streams) : Prop :=
  Holds s₀ s ∧ ∀ a, o = .ok a → P a ∧ s = s₀.declare

theorem tidy_error {α : Type} {P : α → Prop} {e : Exn} (h : Holds s₀ s) :
    Tidy P s₀ (.error e) s := ⟨h, fun _ ha => nomatch ha⟩

theorem holds_declare (s : Streams) : Holds s s.declare := ⟨rfl, rfl⟩

theorem wp_attempt {Q : Except Exn Unit → Streams → Prop} (answers : Answers) (call : Call)
    (hok : Q (.ok ()) s) (herror : ∀ e, Q (.error e) s) : wp (attempt answers call) Q s := by
  show Q (answers.attempt call) s
  cases answers.attempt call with
  | ok u => exact hok
  | error e => exact herror e

/-- an attempt, and the code behind it -/
theorem wp_attempt_bind {α : Type} {P : α → Prop} {call : Call} {f : Unit → Code α}
    (h : Holds s₀ s) (hf : wp (f ()) (Tidy P s₀) s) :
    wp (attempt answers call >>= f) (Tidy P s₀) s := by
  rw [wp_bind]
  exact wp_attempt answers call hf fun e => tidy_error h

theorem destroyed (s₀ : Streams) (role : Option CudaStreamRole) (owns : Bool) :
    Streams.unlock (Streams.destroyStream (Streams.destroyEvent (Streams.createEvent
      { s₀.declare with
        stream := true
        ownsStream := owns
        cudaStreamLock := role
        openStreams := s₀.openStreams + if owns then 1 else 0 }))) = s₀.declare := by
  cases owns <;> rfl

/-- what is done between the copy and the end of the handles leaves them alone -/
theorem wp_streamed {α : Type} {P : α → Prop} {role : CudaStreamRole} {inside : Code α}
    (hinside : ∀ s, wp inside (fun o s' => s' = s ∧ ∀ a, o = .ok a → P a) s) :
    wp (streamed env answers role inside) (Tidy P s₀) s₀.declare := by
  have hrest : ∀ (lock : Option CudaStreamRole) (owns : Bool),
      wp (do
        attempt answers .createEvent
        update Streams.createEvent
        attempt answers .copy
        attempt answers .recordEvent
        attempt answers .waitEvent
        let a ← inside
        update Streams.destroyEvent
        update Streams.destroyStream
        update Streams.unlock
        return a) (Tidy P s₀) { s₀.declare with
          stream := true
          ownsStream := owns
          cudaStreamLock := lock
          openStreams := s₀.openStreams + if owns then 1 else 0 } := by
    intro lock owns
    refine wp_attempt_bind ⟨rfl, rfl⟩ ?_
    rw [wp_bind, wp_update]
    refine wp_attempt_bind ⟨rfl, rfl⟩ (wp_attempt_bind ⟨rfl, rfl⟩ (wp_attempt_bind ⟨rfl, rfl⟩ ?_))
    refine wp_seq (hinside _) (fun a s' h => ?_) fun e s' h => ?_
    · obtain ⟨rfl, ha⟩ := h
      simp only [wp_bind, wp_update, wp_pure]
      rw [destroyed]
      refine ⟨holds_declare s₀, ?_⟩
      rintro a' ⟨⟩
      exact ⟨ha a rfl, rfl⟩
    · obtain ⟨rfl, -⟩ := h
      exact tidy_error ⟨rfl, rfl⟩
  unfold streamed
  split
  · rw [wp_bind, wp_update]
    exact hrest (some role) false
  · refine wp_attempt_bind (holds_declare s₀) ?_
    rw [wp_bind, wp_update]
    exact hrest none true

/-! ## copies -/

theorem memcpy_all {size : Nat} {source target : Bytes} (hsource : source.length = size)
    (htarget : target.length = size) : memcpy size source target = source := by
  unfold memcpy
  rw [List.take_of_length_le (Nat.le_of_eq hsource), List.drop_of_length_le (Nat.le_of_eq htarget),
    List.append_nil]

theorem length_fresh (size : UInt64) : (fresh size).length = size.toNat := List.length_replicate

/-- new memory of the size of the source has its bytes after the copy -/
theorem PinnedBuffer.bytes_filled {p : PinnedBuffer} {source : Bytes} {size : UInt64}
    (hp : p.bytes = fresh size) (hsource : source.length = size.toNat) :
    (p.filled source).bytes = source := by
  have hsize : p.bytes.length = size.toNat := by rw [hp, length_fresh]
  exact memcpy_all (hsource.trans hsize.symm) rfl

theorem wp_makePinned {P : PinnedBuffer → Prop} {size : UInt64} (hs : s = s₀.declare)
    (hP : ∀ p : PinnedBuffer, p.bytes = fresh size → P p) :
    wp (makePinned env answers size) (Tidy P s₀) s := by
  subst hs
  unfold makePinned
  rw [wp_bind, wp_throwIf]
  split
  · exact tidy_error (holds_declare s₀)
  · refine wp_attempt_bind (holds_declare s₀) ⟨holds_declare s₀, ?_⟩
    rintro p ⟨⟩
    exact ⟨hP _ rfl, rfl⟩

theorem wp_makeDevice {P : DeviceBuffer → Prop} {size : UInt64} (hs : s = s₀.declare)
    (hP : ∀ d : DeviceBuffer, d.bytes = fresh size → d.backend = env.backend.address → P d) :
    wp (makeDevice env answers size) (Tidy P s₀) s := by
  subst hs
  unfold makeDevice
  rw [wp_bind, wp_throwIf]
  split
  · exact tidy_error (holds_declare s₀)
  · refine wp_attempt_bind (holds_declare s₀) ⟨holds_declare s₀, ?_⟩
    rintro d ⟨⟩
    exact ⟨hP _ rfl rfl, rfl⟩

/-- tidy code after tidy code -/
theorem wp_tidy_bind {α β : Type} {P : α → Prop} {P' : β → Prop} {x : Code α} {f : α → Code β}
    (hx : wp x (Tidy P s₀) s) (hf : ∀ a, P a → wp (f a) (Tidy P' s₀) s₀.declare) :
    wp (x >>= f) (Tidy P' s₀) s := by
  refine wp_seq hx (fun a s' h => ?_) fun e s' h => tidy_error h.1
  obtain ⟨ha, rfl⟩ := h.2 a rfl
  exact hf a ha

theorem tidy_pure {α : Type} {P : α → Prop} {a : α} (h : P a) :
    wp (pure a : Code α) (Tidy P s₀) s₀.declare := by
  refine ⟨holds_declare s₀, ?_⟩
  rintro a' ⟨⟩
  exact ⟨h, rfl⟩

/-! ## the transfer -/

/-- what each branch hands over -/
def Over (env : Environment) (tier : MemoryTier) (l : Loaded) (result : TransferResult) : Prop :=
  result.status = .Completed ∧ result.record = l.record ∧ HandsOver env tier l.source.bytes result

theorem wp_download {α : Type} {P : α → Prop} {d : DeviceBuffer} {inside : PinnedBuffer → Code α}
    (hsource : l.source = .device d) (hsize : l.source.bytes.length = l.record.size.toNat)
    (hinside : ∀ p : PinnedBuffer, p.bytes = l.source.bytes →
      ∀ s, wp (inside p) (fun o s' => s' = s ∧ ∀ a, o = .ok a → P a) s) :
    wp (download env answers l.record d inside) (Tidy P s₀) s₀.declare := by
  refine wp_tidy_bind (wp_makePinned (P := fun p => p.bytes = fresh l.record.size) rfl
    fun p hp => hp) fun p hp => wp_streamed (hinside _ ?_)
  rw [hsource] at hsize ⊢
  exact PinnedBuffer.bytes_filled hp hsize

theorem wp_toRam (hsize : l.source.bytes.length = l.record.size.toNat) :
    wp (toRam env answers l (begun r l.record)) (Tidy (Over env .Ram l) s₀) s₀.declare := by
  unfold toRam
  split
  · next d hsource =>
    refine wp_download hsource hsize fun p hp s => ?_
    rw [wp_bind]
    refine wp_attempt answers .allocateBuffer ⟨rfl, ?_⟩ fun e => ⟨rfl, fun _ h => nomatch h⟩
    rintro a ⟨⟩
    exact ⟨rfl, rfl, congrArg some hp, rfl, rfl⟩
  · next bytes hsource => exact tidy_pure ⟨rfl, rfl, by rw [hsource]; rfl, rfl, rfl⟩
  · next p hsource =>
    refine wp_attempt_bind (holds_declare s₀) (tidy_pure ⟨rfl, rfl, ?_, rfl, rfl⟩)
    rw [hsource]
    rfl

theorem wp_toPinned (hsize : l.source.bytes.length = l.record.size.toNat) :
    wp (toPinned env answers l (begun r l.record)) (Tidy (Over env .PinnedRam l) s₀)
      s₀.declare := by
  unfold toPinned
  split
  · next d hsource =>
    refine wp_download hsource hsize fun p hp s => ⟨rfl, ?_⟩
    rintro a ⟨⟩
    exact ⟨rfl, rfl, rfl, ⟨p, rfl, hp⟩, rfl⟩
  · refine wp_tidy_bind (wp_makePinned (P := fun p => p.bytes = fresh l.record.size) rfl
      fun p hp => hp) fun p hp => tidy_pure ⟨rfl, rfl, rfl, ⟨_, rfl, ?_⟩, rfl⟩
    exact PinnedBuffer.bytes_filled hp hsize

theorem wp_upload {staging : PinnedBuffer} (hstaging : staging.bytes = l.source.bytes)
    (hsize : l.source.bytes.length = l.record.size.toNat) :
    wp (upload env answers r l.record (begun r l.record) staging) (Tidy (Over env .Vram l) s₀)
      s₀.declare := by
  unfold upload
  refine wp_tidy_bind (wp_makeDevice (P := fun d => d.bytes = fresh l.record.size ∧
    d.backend = env.backend.address) rfl fun d hd hb => ⟨hd, hb⟩) fun d hd => ?_
  refine wp_streamed fun s => ⟨rfl, ?_⟩
  rintro a ⟨⟩
  refine ⟨rfl, rfl, rfl, rfl, _, rfl, ?_, hd.2⟩
  show memcpy staging.bytes.length staging.bytes d.bytes = _
  rw [hstaging, hd.1]
  exact memcpy_all rfl ((length_fresh _).trans hsize.symm)

theorem wp_toVram (hsize : l.source.bytes.length = l.record.size.toNat) (hown : l.Own env) :
    wp (toVram env answers r l (begun r l.record)) (Tidy (Over env .Vram l) s₀) s₀.declare := by
  unfold toVram
  split
  · next d hsource =>
    refine tidy_pure ⟨rfl, rfl, rfl, rfl, d, rfl, ?_, hown d hsource⟩
    rw [hsource]
    rfl
  · next p hsource => exact wp_upload (by rw [hsource]; rfl) hsize
  · next bytes hsource =>
    have hbytes : l.source.bytes = bytes := by rw [hsource]; rfl
    refine wp_tidy_bind (P := fun p : PinnedBuffer => p.bytes = l.source.bytes) ?_
      fun p hp => wp_upload hp hsize
    refine wp_tidy_bind (wp_makePinned (P := fun p => p.bytes = fresh l.record.size) rfl
      fun p hp => hp) fun p hp => tidy_pure ?_
    rw [hbytes] at hsize ⊢
    exact PinnedBuffer.bytes_filled hp hsize

theorem wp_transfer (hsize : l.source.bytes.length = l.record.size.toNat) (hown : l.Own env) :
    wp (transfer env answers r l) (Tidy (Over env r.destination l) s₀) s₀.declare := by
  unfold transfer
  cases r.destination with
  | Ram => exact wp_toRam hsize
  | PinnedRam => exact wp_toPinned hsize
  | Vram => exact wp_toVram hsize hown
  | Nvme => exact tidy_error (holds_declare s₀)

theorem destroyEvent_open (s : Streams) : s.destroyEvent.openStreams = s.openStreams ∧
    s.destroyEvent.openEvents = s.openEvents - (if s.completion then 1 else 0) ∧
    s.destroyEvent.stream = s.stream ∧ s.destroyEvent.ownsStream = s.ownsStream := by
  unfold Streams.destroyEvent
  split <;> exact ⟨rfl, rfl, rfl, rfl⟩

theorem destroyStream_open (s : Streams) : s.destroyStream.openEvents = s.openEvents ∧
    s.destroyStream.openStreams =
      s.openStreams - if s.stream && s.ownsStream then 1 else 0 := by
  unfold Streams.destroyStream
  split <;> exact ⟨rfl, rfl⟩

/-- the handler destroys what the locals hold -/
theorem caught {s : Streams} (h : Holds s₀ s) :
    s.destroyEvent.destroyStream.unlock.openStreams = s₀.openStreams ∧
      s.destroyEvent.destroyStream.unlock.openEvents = s₀.openEvents := by
  obtain ⟨heventStreams, hevents, hstream, howns⟩ := destroyEvent_open s
  obtain ⟨hstreamEvents, hstreams⟩ := destroyStream_open s.destroyEvent
  rw [hstream, howns, heventStreams] at hstreams
  constructor
  · show s.destroyEvent.destroyStream.openStreams = _
    rw [hstreams, h.streams, Nat.add_sub_cancel]
  · show s.destroyEvent.destroyStream.openEvents = _
    rw [hstreamEvents, hevents, h.events, Nat.add_sub_cancel]

theorem wp_tryTransfer (answers : Answers) (s : Streams)
    (hsupplies : Supplies env r l.record l.source.bytes) (hown : l.Own env) :
    wp (tryTransfer env answers r l) (fun o s' => s'.openStreams = s.openStreams ∧
      s'.openEvents = s.openEvents ∧ ∀ result, o = .ok result → Intact env r result) s := by
  unfold tryTransfer
  rw [wp_bind, wp_update]
  have htransfer : wp (transfer env answers r l) (Tidy (Over env r.destination l) s) s.declare :=
    wp_transfer hsupplies.sized hown
  refine wp_catch htransfer (fun a s' h => ?_) fun e s' h => ?_
  · obtain ⟨⟨hstatus, hrecord, hover⟩, rfl⟩ := h.2 a rfl
    refine ⟨rfl, rfl, ?_⟩
    rintro result ⟨⟩
    exact ⟨hstatus, l.source.bytes, hrecord ▸ hsupplies, hover⟩
  · simp only [wp_bind, wp_update, wp_throw]
    obtain ⟨hstreams, hevents⟩ := caught h.1
    exact ⟨hstreams, hevents, fun _ ha => by cases ha⟩

end HyperMoE.Memory
