import HyperMoE.Tensor.TensorView

/-!
# Views stay inside their storage

* `TensorView.Within r`      the storage of a view lies in the region `r`, and its elements in it;
* `returns_make`             what the constructor of a view has checked;
* `returns_sliceBytes`, `returns_reshape`, `returns_chain`   no call leaves the region;
* `Over r`                   the views over a region: of a buffer, or of a tensor over one;
* `elements_inside_storage`   every element, after any chain of calls.
-/

set_option linter.dupNamespace false

namespace HyperMoE.Tensor

open Lib Lib.Fallible

def Region.Has (r : Region) (address : Nat) : Prop :=
  r.data.toNat ≤ address ∧ address < r.data.toNat + r.size.toNat

namespace TensorView

/-- the bytes of the element at a multi-index -/
def byteAddress (v : TensorView) (index : List Nat) (byte : Nat) : Nat :=
  v.data.toNat + address v.shape.strides index * v.dtype.sizeOf.toNat + byte

/-- an address in the storage of the view -/
def Stores (v : TensorView) (address : Nat) : Prop :=
  v.data.toNat ≤ address ∧ address < v.data.toNat + v.storageBytes.toNat

structure Within (r : Region) (v : TensorView) : Prop where
  starts : r.data.toNat ≤ v.data.toNat
  ends : v.data.toNat + v.storageBytes.toNat ≤ r.data.toNat + r.size.toNat
  fits : v.shape.storageElementCount.toNat * v.dtype.sizeOf.toNat ≤ v.storageBytes.toNat
  /-- the pointer to write through is the same one -/
  writes : v.mutableData = 0 ∨ v.mutableData = v.data

variable {r : Region} {v w : TensorView} {shape : Shape} {dtype : AnyDType} {device : Device}
  {data mutableData storageBytes : UInt64} {exact expired : Bool}

/-- the storage of a view, as a region of its own -/
def Within.storage (h : v.Within r) : Region :=
  ⟨v.data, v.storageBytes, Nat.lt_of_le_of_lt h.ends r.bounded⟩

theorem Within.refl (h : v.Within r) : v.Within h.storage := ⟨Nat.le_refl _, Nat.le_refl _, h.fits, h.writes⟩

theorem Within.stores (h : v.Within r) {index : List Nat} {byte : Nat}
    (hindex : InRange v.shape.dimensions index) (hbyte : byte < v.dtype.sizeOf.toNat) :
    v.Stores (v.byteAddress index byte) := by
  have hbelow := v.shape.counts.addresses.below index hindex
  have hend : address v.shape.strides index * v.dtype.sizeOf.toNat + byte < v.storageBytes.toNat := by
    calc address v.shape.strides index * v.dtype.sizeOf.toNat + byte
        < address v.shape.strides index * v.dtype.sizeOf.toNat + v.dtype.sizeOf.toNat :=
          Nat.add_lt_add_left hbyte _
      _ = (address v.shape.strides index + 1) * v.dtype.sizeOf.toNat := (Nat.succ_mul _ _).symm
      _ ≤ v.shape.storageElementCount.toNat * v.dtype.sizeOf.toNat := Nat.mul_le_mul_right _ hbelow
      _ ≤ v.storageBytes.toNat := h.fits
  unfold Stores byteAddress
  omega

theorem Within.has (h : v.Within r) {a : Nat} (ha : v.Stores a) : r.Has a := by
  obtain ⟨hstart, hend⟩ := ha
  exact ⟨Nat.le_trans h.starts hstart, Nat.lt_of_lt_of_le hend h.ends⟩

/-! ## the constructors -/

theorem returns_bytesOf (elements : UInt64) (dtype : AnyDType) (invalid overflow : StdError) :
    Returns (bytesOf elements dtype invalid overflow) fun bytes =>
      bytes.toNat = elements.toNat * dtype.sizeOf.toNat := by
  refine Returns.guard fun hzero => Returns.guard fun hle exact => ?_
  refine Watched.wp_mul (Watched.exact_mul (UInt64.not_lt.mp hle) hzero) fun c hc => ?_
  exact fun bytes h => Except.ok.inj h ▸ hc

/-- what the view is made of, and that it fits -/
theorem returns_make : Returns (make shape dtype device data mutableData storageBytes expired) fun v =>
    v.shape = shape ∧ v.dtype = dtype ∧ v.data = data ∧ v.mutableData = mutableData ∧
      v.storageBytes = storageBytes ∧
      shape.storageElementCount.toNat * dtype.sizeOf.toNat ≤ storageBytes.toNat := by
  refine Returns.then fun bytes => Returns.then fun _ => Returns.guard fun _ => Returns.guard fun _ => ?_
  refine (returns_bytesOf _ dtype _ _).bind fun required hrequired => Returns.guard fun hle => ?_
  have hfits := UInt64.le_iff_toNat_le.mp (UInt64.not_lt.mp hle)
  exact Returns.pure ⟨rfl, rfl, rfl, rfl, rfl, hrequired ▸ hfits⟩

theorem returns_make_within (hstart : r.data.toNat ≤ data.toNat)
    (hend : data.toNat + storageBytes.toNat ≤ r.data.toNat + r.size.toNat)
    (hwrites : mutableData = 0 ∨ mutableData = data) :
    Returns (make shape dtype device data mutableData storageBytes expired) (Within r) := by
  refine returns_make.mono fun v hv => ?_
  obtain ⟨rfl, rfl, rfl, rfl, rfl, hfits⟩ := hv
  exact ⟨hstart, hend, hfits, hwrites⟩

theorem writes_cases (writable : Bool) (data : UInt64) :
    (if writable then data else 0) = 0 ∨ (if writable then data else 0) = data := by
  cases writable
  · exact .inl rfl
  · exact .inr rfl

theorem returns_fromDeviceBuffer (buffer : DeviceBuffer) (writable : Bool) :
    Returns (fromDeviceBuffer shape dtype device (some buffer) writable) (Within buffer.toRegion) := by
  refine (returns_orThrow _ _).bind fun b hb => Returns.guard fun _ => Returns.then fun _ => ?_
  obtain rfl := Option.some.inj hb
  exact returns_make_within (Nat.le_refl _) (Nat.le_refl _) (writes_cases writable _)

theorem returns_fromHostBuffer (buffer : Region) (writable : Bool) :
    Returns (fromHostBuffer shape dtype (some buffer) writable) (Within buffer) := by
  refine (returns_orThrow _ _).bind fun b hb => Returns.guard fun _ => Returns.then fun _ => ?_
  obtain rfl := Option.some.inj hb
  exact returns_make_within (Nat.le_refl _) (Nat.le_refl _) (writes_cases writable _)

/-! ## the calls -/

theorem returns_reshape (h : v.Within r) (shape : Shape) (expired : Expired) :
    Returns (v.reshape shape expired) (Within r) :=
  Returns.guard fun _ => Returns.guard fun _ => Returns.guard fun _ =>
    returns_make_within h.starts h.ends h.writes

theorem wp_advance {base offset : UInt64} (h : base.toNat + offset.toNat < 2 ^ 64)
    {Q : Except StdError UInt64 → Bool → Prop} (hnull : base = 0 → Q (.ok 0) exact)
    (hadd : ∀ c : UInt64, c.toNat = base.toNat + offset.toNat → Q (.ok c) exact) :
    wp (advance base offset) Q exact := by
  unfold advance
  rw [wp_ite]
  split
  · next h0 => exact hnull h0
  · exact Watched.wp_add h hadd

theorem returns_sliceBytes (h : v.Within r) (offset : UInt64) (shape : Shape) (dtype : AnyDType)
    (expired : Expired) : Returns (v.sliceBytes offset shape dtype expired) (Within r) := by
  refine Returns.guard fun _ => Returns.guard fun _ => Returns.guard fun _ => Returns.guard fun hle => ?_
  have hoffset := UInt64.not_lt.mp hle
  have hoffset' := UInt64.le_iff_toNat_le.mp hoffset
  have hends := h.ends
  have hbounded := r.bounded
  intro exact
  rw [wp_bind]
  refine Watched.wp_sub hoffset fun remaining hremaining => ?_
  refine Returns.bind (returns_bytesOf _ dtype _ _) (fun size _ => Returns.guard fun hlt => ?_) _
  have hsize := UInt64.le_iff_toNat_le.mp (UInt64.not_lt.mp hlt)
  have hstarts := h.starts
  intro exact
  rw [wp_bind]
  refine Watched.wp_add (by omega) fun data hdata => ?_
  have hmake : ∀ mutableData : UInt64, (mutableData = 0 ∨ mutableData = data) →
      Returns (make shape dtype v.device data mutableData size expired.constructed) (Within r) :=
    fun _ hwrites => returns_make_within (by omega) (by omega) hwrites
  dsimp only
  rw [wp_bind]
  rcases h.writes with hnull | hsame
  · rw [hnull]
    exact hmake 0 (.inl rfl) _
  · rw [hsame]
    refine wp_advance (by omega) (fun _ => hmake 0 (.inl rfl) _) fun mutableData hmutable => ?_
    exact hmake mutableData (.inr (UInt64.toNat_inj.mp (hmutable.trans hdata.symm))) _

theorem returns_chain (h : v.Within r) (calls : List (Call × Expired)) :
    Returns (v.chain calls) (Within r) := by
  induction calls generalizing v with
  | nil => exact Returns.pure h
  | cons step calls ih =>
    obtain ⟨call, expired⟩ := step
    refine Returns.bind ?_ fun v' hv' => ih hv'
    cases call with
    | reshape shape => exact returns_reshape h shape expired
    | sliceBytes offset shape dtype => exact returns_sliceBytes h offset shape dtype expired

end TensorView

/-! ## tensors over a buffer -/

namespace Tensor

/-- a tensor whose storage is the region -/
structure Fills (r : Region) (t : Tensor) : Prop where
  data : t.data = r.data
  storageBytes : t.storageBytes = r.size
  fits : t.shape.storageElementCount.toNat * t.dtype.sizeOf.toNat ≤ t.storageBytes.toNat

variable {r : Region} {t : Tensor} {shape : Shape} {dtype : AnyDType} {device : Device}

theorem returns_make (owner : Bool) :
    Returns (make shape dtype device r.data r.size owner) (Fills r) := by
  refine Returns.then fun bytes => Returns.then fun _ => Returns.guard fun _ => ?_
  refine (TensorView.returns_bytesOf _ dtype _ _).bind fun required hrequired => Returns.guard fun hle => ?_
  have hfits := UInt64.le_iff_toNat_le.mp (UInt64.not_lt.mp hle)
  exact Returns.pure ⟨rfl, rfl, hrequired ▸ hfits⟩

theorem returns_fromDeviceBuffer (buffer : DeviceBuffer) :
    Returns (fromDeviceBuffer shape dtype device (some buffer)) (Fills buffer.toRegion) := by
  refine (returns_orThrow _ _).bind fun b hb => Returns.guard fun _ => ?_
  obtain rfl := Option.some.inj hb
  exact Returns.then fun _ => Returns.then fun _ => Returns.guard fun _ => returns_make true

theorem returns_reshape (h : t.Fills r) (shape : Shape) : Returns (t.reshape shape) (Fills r) := by
  refine Returns.guard fun _ => Returns.guard fun _ => Returns.guard fun _ => ?_
  rw [h.data, h.storageBytes]
  exact returns_make t.owner

theorem Fills.view (h : t.Fills r) (const : Bool) : (t.view const).Within r where
  starts := Nat.le_of_eq (congrArg UInt64.toNat h.data.symm)
  ends := by
    show t.data.toNat + t.storageBytes.toNat ≤ _
    rw [h.data, h.storageBytes]
  fits := h.fits
  writes := by
    cases const
    · exact .inr rfl
    · exact .inl rfl

end Tensor

/-- what code answers, run on its own -/
def Answers {α : Type} (x : Code α) (a : α) : Prop := (x.exec true).1 = .ok a

theorem Answers.of_returns {α : Type} {x : Code α} {a : α} {P : α → Prop} (h : Answers x a)
    (hx : Returns x P) : P a := hx true a h

/-- the tensors whose memory is the region -/
inductive TensorOver (r : Region) : Tensor → Prop where
  | fromStorage {shape dtype device owner t}
      (h : Answers (Tensor.fromStorage shape dtype device r.data r.size owner) t) : TensorOver r t
  | fromDeviceBuffer {shape dtype device t} {buffer : DeviceBuffer} (hr : buffer.toRegion = r)
      (h : Answers (Tensor.fromDeviceBuffer shape dtype device (some buffer)) t) : TensorOver r t
  | reshape {t t'} (ht : TensorOver r t) (shape : Shape) (h : Answers (t.reshape shape) t') :
      TensorOver r t'

/-- the views whose memory is the region -/
inductive Over (r : Region) : TensorView → Prop where
  | fromDeviceBuffer {shape dtype device writable v} {buffer : DeviceBuffer} (hr : buffer.toRegion = r)
      (h : Answers (TensorView.fromDeviceBuffer shape dtype device (some buffer) writable) v) : Over r v
  | fromHostBuffer {shape dtype writable v}
      (h : Answers (TensorView.fromHostBuffer shape dtype (some r) writable) v) : Over r v
  | view {t : Tensor} (h : TensorOver r t) (const : Bool) : Over r (t.view const)

variable {r : Region}

theorem TensorOver.fills {t : Tensor} (h : TensorOver r t) : t.Fills r := by
  induction h with
  | fromStorage h => exact h.of_returns (Tensor.returns_make _)
  | fromDeviceBuffer hr h =>
    subst hr
    exact h.of_returns (Tensor.returns_fromDeviceBuffer _)
  | reshape _ shape h ih => exact h.of_returns (Tensor.returns_reshape ih shape)

theorem Over.within {v : TensorView} (h : Over r v) : v.Within r := by
  cases h with
  | fromDeviceBuffer hr h =>
    subst hr
    exact h.of_returns (TensorView.returns_fromDeviceBuffer _ _)
  | fromHostBuffer h => exact h.of_returns (TensorView.returns_fromHostBuffer r _)
  | view h const => exact h.fills.view const

/-! ## every element -/

/-- the extents that a constructor answers address nothing outside, and no word wrapped -/
theorem addresses_of_built {dimensions : List UInt64} {e : Extents} {exact : Bool}
    (h : (contiguous dimensions).exec true = (.ok e, exact) ∨
      ∃ strides, (strided dimensions strides).exec true = (.ok e, exact)) :
    exact = true ∧ e.Addresses := by
  rcases h with h | ⟨strides, h⟩
  · have hw := wp_contiguous dimensions true
    rw [wp_def, h] at hw
    exact ⟨hw.1, hw.2.2.2.addresses⟩
  · have hw := wp_strided dimensions strides true
    rw [wp_def, h] at hw
    exact ⟨hw.1, hw.2.2.2.addresses⟩

theorem elements_inside_storage :
    (∀ (dimensions : List UInt64) (e : Extents) (exact : Bool),
      (contiguous dimensions).exec true = (.ok e, exact) ∨
        (∃ strides, (strided dimensions strides).exec true = (.ok e, exact)) →
      exact = true ∧ e.Addresses) ∧
    ∀ (r : Region) (u v w : TensorView) (before after : List (TensorView.Call × TensorView.Expired)),
      Over r u → Answers (u.chain before) v → Answers (v.chain after) w →
      (w.mutableData = 0 ∨ w.mutableData = w.data) ∧
      ∀ (index : List Nat) (byte : Nat), InRange w.shape.dimensions index →
        byte < w.dtype.sizeOf.toNat →
        r.Has (w.byteAddress index byte) ∧ v.Stores (w.byteAddress index byte) := by
  refine ⟨fun dimensions e exact h => addresses_of_built h, ?_⟩
  intro r u v w before after hu hv hw
  have hv' : v.Within r := hv.of_returns (TensorView.returns_chain hu.within before)
  have hw' : w.Within hv'.storage := hw.of_returns (TensorView.returns_chain hv'.refl after)
  refine ⟨hw'.writes, fun index byte hindex hbyte => ?_⟩
  have hstores : v.Stores (w.byteAddress index byte) := hw'.has (hw'.stores hindex hbyte)
  exact ⟨hv'.has hstores, hstores⟩

/-! ## a matrix with gaps between its rows, a slice of it as other elements, and its elements in a row -/

def sampleRegion : Region := ⟨4096, 64, by decide⟩

def gapped : Shape := ⟨⟨[2, 3], [4, 1], 6, 7⟩, .inr (by decide)⟩
def square : Shape := ⟨⟨[2, 2], [2, 1], 4, 4⟩, .inl (by decide)⟩
def flat : Shape := ⟨⟨[4], [1], 4, 4⟩, .inl (by decide)⟩

def sampleView : TensorView := ⟨gapped, some .FP32, .cpu, 4096, 4096, 24, 64⟩
def sampleSlice : TensorView := ⟨square, some .FP16, .cpu, 4104, 4104, 8, 8⟩
def sampleFlat : TensorView := ⟨flat, some .FP16, .cpu, 4104, 4104, 8, 8⟩

/-- the last byte of the last element -/
theorem last_byte_inside : sampleRegion.Has 4111 ∧ sampleSlice.Stores 4111 :=
  (elements_inside_storage.2 sampleRegion sampleView sampleSlice sampleFlat
    [(.sliceBytes 8 square (some .FP16), {})] [(.reshape flat, {})]
    (@Over.fromHostBuffer sampleRegion gapped (some .FP32) true _ rfl) rfl rfl).2 [3] 1 (by decide)
    (by decide)

end HyperMoE.Tensor
