import HyperMoE.Memory.TransferManager
import HyperMoE.Tensor.Addressing
import HyperMoE.Tensor.DType

/-!
# Tensors and views

`Tensor.cpp` and `TensorView.cpp`: a shape over a range of memory, with an element type and a device.
A tensor keeps the owner of its memory alive, a view does not.

* `Region`                       an object in memory; a buffer is one, with its backend;
* `Tensor`, `TensorView`         the fields;
* `Tensor.make`, `TensorView.make`   the private constructors;
* `fromStorage`, `fromDeviceBuffer`, `fromHostBuffer`   tensors and views over a buffer;
* `reshape`, `sliceBytes`        what is made of them.

An address is a word, and `nullptr` is 0.  An element type or a device type is `none` where the value
is none of the enumerators.  What `lifetime_.expired()` answers is an argument of a call.
-/

set_option linter.dupNamespace false

namespace HyperMoE.Tensor

open Lib Lib.Fallible
open Memory (BackendKind)

/-- `class TensorError : public std::invalid_argument` -/
def TensorError (what : String) : StdError := .invalid_argument what

namespace DType

def alignmentOf : DType → UInt64
  | FP32 => 4
  | FP16 => 2
  | BF16 => 2
  | INT8 => 1

end DType

/-- what a variable of the enumeration holds -/
abbrev AnyDType := Option DType

namespace AnyDType

def sizeOf (dtype : AnyDType) : UInt64 := dtype.elim 0 DType.sizeOf
def alignmentOf (dtype : AnyDType) : UInt64 := dtype.elim 0 DType.alignmentOf

end AnyDType

/-! ## devices and buffers -/

inductive DeviceType where
  | CPU
  | CUDA
  deriving DecidableEq, Repr

structure Device where
  type : Option DeviceType := some .CPU
  ordinal : Int := 0
  deriving DecidableEq, Repr

def Device.cpu : Device := {}

/-- an object in memory: the address after it is an address, too -/
structure Region where
  data : UInt64
  size : UInt64
  bounded : data.toNat + size.toNat < 2 ^ 64

/-- what a buffer's backend answers about itself -/
structure BufferBackend where
  kind : BackendKind := .Cpu
  deviceOrdinal : Int := 0
  deriving DecidableEq, Repr

/-- a buffer, as far as a tensor or a view reads it -/
structure DeviceBuffer extends Region where
  backend : Option BufferBackend := some {}

/-- `bool(buffer)` -/
def DeviceBuffer.Holds (buffer : DeviceBuffer) : Prop := buffer.data ≠ 0

instance (buffer : DeviceBuffer) : Decidable buffer.Holds := inferInstanceAs (Decidable (_ ≠ _))

/-- whether the device's type or its ordinal is another than the backend's -/
def Device.Mismatches (device : Device) (backend : BufferBackend) : Prop :=
  (device.type = some .CPU ∧ backend.kind ≠ .Cpu) ∨
  (device.type = some .CUDA ∧ (backend.kind ≠ .Cuda ∨ backend.deviceOrdinal ≠ device.ordinal))

instance (device : Device) (backend : BufferBackend) : Decidable (device.Mismatches backend) :=
  inferInstanceAs (Decidable (_ ∨ _))

/-- a count of elements in bytes -/
def bytesOf (elements : UInt64) (dtype : AnyDType) (invalid overflow : StdError) : Code UInt64 := do
  throwIf (dtype.sizeOf = 0) invalid
  throwIf (elements > maxWord / dtype.sizeOf) overflow
  Watched.mul elements dtype.sizeOf

/-! ## tensors -/

structure Tensor where
  shape : Shape := .scalar
  dtype : AnyDType := some .FP32
  device : Device := {}
  data : UInt64 := 0
  bytes : UInt64 := 0
  storageBytes : UInt64 := 0
  /-- whether there is an owner -/
  owner : Bool := false

namespace Tensor

def validateStorageMetadata (dtype : AnyDType) (device : Device) (data : UInt64) : Code Unit := do
  throwIf (dtype = none) (TensorError "tensor dtype is invalid")
  throwIf (device.type = none ∨ device.ordinal < 0) (TensorError "tensor device metadata is invalid")
  throwIf (device.type = some .CPU ∧ device.ordinal ≠ 0)
    (TensorError "CPU tensors must use device ordinal zero")
  throwIf (data ≠ 0 ∧ data % dtype.alignmentOf ≠ 0)
    (TensorError "tensor storage is not aligned for its dtype")

def requiredBytes (shape : Shape) (dtype : AnyDType) : Code UInt64 :=
  bytesOf shape.storageElementCount dtype (TensorError "tensor dtype is invalid")
    (.overflow_error "tensor byte size overflow")

def logicalBytes (shape : Shape) (dtype : AnyDType) : Code UInt64 :=
  bytesOf shape.elementCount dtype (TensorError "tensor dtype is invalid")
    (.overflow_error "tensor byte size overflow")

/-- the private constructor -/
def make (shape : Shape) (dtype : AnyDType) (device : Device) (data storageBytes : UInt64)
    (owner : Bool) : Code Tensor := do
  let bytes ← logicalBytes shape dtype
  validateStorageMetadata dtype device data
  throwIf (data = 0 ∨ owner = false) (TensorError "tensor storage and owner must be present")
  let required ← requiredBytes shape dtype
  throwIf (storageBytes < required)
    (TensorError "tensor storage is smaller than its metadata requires")
  return ⟨shape, dtype, device, data, bytes, storageBytes, owner⟩

def fromStorage (shape : Shape) (dtype : AnyDType) (device : Device) (data storageBytes : UInt64)
    (owner : Bool) : Code Tensor := make shape dtype device data storageBytes owner

def fromDeviceBuffer (shape : Shape) (dtype : AnyDType) (device : Device)
    (buffer : Option DeviceBuffer) : Code Tensor := do
  let buffer ← orThrow buffer (TensorError "tensor device buffer is empty")
  throwIf (¬ buffer.Holds) (TensorError "tensor device buffer is empty")
  let backend ← orThrow buffer.backend (TensorError "tensor device buffer is empty")
  validateStorageMetadata dtype device buffer.data
  throwIf (device.Mismatches backend) (TensorError "tensor device metadata does not match its buffer")
  make shape dtype device buffer.data buffer.size true

def valid (t : Tensor) : Prop := t.data ≠ 0 ∧ t.owner = true ∧ t.bytes ≠ 0

instance (t : Tensor) : Decidable t.valid := inferInstanceAs (Decidable (_ ∧ _))

def reshape (t : Tensor) (shape : Shape) : Code Tensor := do
  throwIf (¬ t.valid) (.logic_error "cannot reshape an empty tensor")
  throwIf (t.shape.isContiguous = false ∨ shape.isContiguous = false)
    (TensorError "reshape currently requires contiguous tensors")
  throwIf (shape.elementCount ≠ t.shape.elementCount)
    (TensorError "reshape must preserve the element count")
  make shape t.dtype t.device t.data t.storageBytes t.owner

end Tensor

/-! ## views -/

structure TensorView where
  shape : Shape := .scalar
  dtype : AnyDType := some .FP32
  device : Device := {}
  data : UInt64 := 0
  mutableData : UInt64 := 0
  bytes : UInt64 := 0
  storageBytes : UInt64 := 0

/-- `Tensor::view()`; the data of a constant tensor is not writable -/
def Tensor.view (t : Tensor) (const : Bool) : TensorView where
  shape := t.shape
  dtype := t.dtype
  device := t.device
  data := t.data
  mutableData := if const then 0 else t.data
  bytes := t.bytes
  storageBytes := t.storageBytes

namespace TensorView

def validateDevice (device : Device) : Code Unit := do
  throwIf (device.type = none ∨ device.ordinal < 0)
    (TensorError "tensor view device metadata is invalid")
  throwIf (device.type = some .CPU ∧ device.ordinal ≠ 0)
    (TensorError "CPU tensor views must use device ordinal zero")

def validateBufferDevice (buffer : DeviceBuffer) (device : Device) : Code Unit := do
  validateDevice device
  let backend ← orThrow buffer.backend (TensorError "tensor view buffer has no backend")
  throwIf (device.Mismatches backend)
    (TensorError "tensor view device metadata does not match its buffer")

def requiredBytes (shape : Shape) (dtype : AnyDType) : Code UInt64 :=
  bytesOf shape.storageElementCount dtype (.overflow_error "tensor view storage size overflow")
    (.overflow_error "tensor view storage size overflow")

def logicalBytes (shape : Shape) (dtype : AnyDType) : Code UInt64 :=
  bytesOf shape.elementCount dtype (.overflow_error "tensor view byte size overflow")
    (.overflow_error "tensor view byte size overflow")

/-- the private constructor -/
def make (shape : Shape) (dtype : AnyDType) (device : Device)
    (data mutableData storageBytes : UInt64) (expired : Bool) : Code TensorView := do
  let bytes ← logicalBytes shape dtype
  validateDevice device
  throwIf (data = 0 ∨ expired = true) (TensorError "tensor view storage must be alive")
  throwIf (dtype.alignmentOf = 0 ∨ data % dtype.alignmentOf ≠ 0)
    (TensorError "tensor view storage is not aligned for its dtype")
  let required ← requiredBytes shape dtype
  throwIf (storageBytes < required)
    (TensorError "tensor view storage is smaller than its metadata requires")
  return ⟨shape, dtype, device, data, mutableData, bytes, storageBytes⟩

def fromDeviceBuffer (shape : Shape) (dtype : AnyDType) (device : Device)
    (buffer : Option DeviceBuffer) (writable : Bool) : Code TensorView := do
  let buffer ← orThrow buffer (TensorError "tensor view buffer is empty")
  throwIf (¬ buffer.Holds) (TensorError "tensor view buffer is empty")
  validateBufferDevice buffer device
  make shape dtype device buffer.data (if writable then buffer.data else 0) buffer.size false

def fromHostBuffer (shape : Shape) (dtype : AnyDType) (buffer : Option Region) (writable : Bool) :
    Code TensorView := do
  let buffer ← orThrow buffer (TensorError "tensor view host buffer is empty")
  throwIf (buffer.size = 0) (TensorError "tensor view host buffer is empty")
  validateDevice .cpu
  make shape dtype .cpu buffer.data (if writable then buffer.data else 0) buffer.size false

def valid (v : TensorView) (expired : Bool) : Prop := v.data ≠ 0 ∧ v.bytes ≠ 0 ∧ expired = false

instance (v : TensorView) (expired : Bool) : Decidable (v.valid expired) :=
  inferInstanceAs (Decidable (_ ∧ _))

/-- the owner can go between the first look at it and the constructor's -/
structure Expired where
  first : Bool := false
  constructed : Bool := false
  deriving DecidableEq, Repr

def reshape (v : TensorView) (shape : Shape) (expired : Expired) : Code TensorView := do
  throwIf (¬ v.valid expired.first) (.logic_error "cannot reshape an invalid tensor view")
  throwIf (v.shape.isContiguous = false ∨ shape.isContiguous = false)
    (TensorError "reshape currently requires contiguous tensor views")
  throwIf (shape.elementCount ≠ v.shape.elementCount)
    (TensorError "reshape must preserve the element count")
  make shape v.dtype v.device v.data v.mutableData v.storageBytes expired.constructed

/-- `base == nullptr ? nullptr : base + offset` -/
def advance (base offset : UInt64) : Code UInt64 := if base = 0 then pure 0 else Watched.add base offset

def sliceBytes (v : TensorView) (offsetBytes : UInt64) (shape : Shape) (dtype : AnyDType)
    (expired : Expired) : Code TensorView := do
  throwIf (¬ v.valid expired.first) (.logic_error "cannot slice an invalid tensor view")
  let alignment := dtype.sizeOf
  throwIf (alignment = 0) (TensorError "tensor view dtype is invalid")
  throwIf (offsetBytes % alignment ≠ 0) (TensorError "tensor view slice offset is not element-aligned")
  throwIf (offsetBytes > v.storageBytes) (.out_of_range "tensor view slice offset exceeds storage")
  let remaining ← Watched.sub v.storageBytes offsetBytes
  let sliceStorageBytes ← requiredBytes shape dtype
  throwIf (remaining < sliceStorageBytes) (.out_of_range "tensor view slice exceeds storage")
  let data ← Watched.add v.data offsetBytes
  let mutableData ← advance v.mutableData offsetBytes
  make shape dtype v.device data mutableData sliceStorageBytes expired.constructed

/-- what can be made of a view -/
inductive Call where
  | reshape (shape : Shape)
  | sliceBytes (offsetBytes : UInt64) (shape : Shape) (dtype : AnyDType)

def perform (v : TensorView) (expired : Expired) : Call → Code TensorView
  | .reshape shape => v.reshape shape expired
  | .sliceBytes offsetBytes shape dtype => v.sliceBytes offsetBytes shape dtype expired

/-- one call after another -/
def chain (v : TensorView) : List (Call × Expired) → Code TensorView
  | [] => pure v
  | (call, expired) :: calls => do
    let v ← v.perform expired call
    v.chain calls

end TensorView

end HyperMoE.Tensor
