import HyperMoE.Lib.Fallible

/-!
# Tiers, experts, buffers and transfers

The values that the memory manager, the expert manager, the scheduler and the transfer manager
pass to each other.

* `MemoryTier`, `Expert`, `ExpertKey`    where an expert lives and how it is named;
* `Exn`                                  the exceptions of the code, with the classes that its
                                         `catch` clauses tell apart;
* `Buffer`                               a shared weight buffer: its address and its bytes;
* `TransferRequest`, `TransferResult`    one transfer, as submitted and as delivered.

Latencies, time stamps and allocation tags are left out: nothing below reads them.
-/

namespace HyperMoE

open Lib

inductive MemoryTier where
  | Vram
  | Ram
  | PinnedRam
  | Nvme
  deriving DecidableEq, Repr

abbrev ExpertId := Nat
abbrev LayerId := Nat

/-- `key(layer, id) = (layer << 32) | id` is injective on 32-bit ids and orders keys by layer
first; the pair says the same -/
abbrev ExpertKey := LayerId × ExpertId

instance : LawfulBEq ExpertKey := inferInstance

inductive QuantizationType where
  | Fp32 | Fp16 | Bf16 | Q4 | Q5 | Q6 | Int8 | Fp8
  deriving DecidableEq, Repr

structure Expert where
  id : ExpertId
  layer : LayerId
  sizeBytes : Nat
  quantization : QuantizationType := .Q4
  location : MemoryTier := .Nvme
  deriving DecidableEq, Repr

def Expert.key (e : Expert) : ExpertKey := (e.layer, e.id)

/-! ## exceptions -/

/-- `invalidArgument` and `outOfRange` derive from `std::logic_error`, `overflowError` (and the
storage errors of a transfer) from `std::runtime_error`; `other` is any other class.
`outOfFuel` is no exception: a recursion of the model that was cut off. -/
inductive Exn where
  | runtimeError (what : String)
  | overflowError (what : String)
  | logicError (what : String)
  | invalidArgument (what : String)
  | outOfRange (what : String)
  | other (what : String)
  | outOfFuel
  deriving DecidableEq, Repr

/-- caught by `catch (const std::runtime_error&)` -/
def Exn.isRuntimeError : Exn → Bool
  | .runtimeError _ => true
  | .overflowError _ => true
  | _ => false

/-! ## buffers -/

abbrev Bytes := List UInt8

/-- a buffer behind a `shared_ptr`: pointers are compared by `addr`; `available` is false of a
device buffer whose backend is gone -/
structure Buffer where
  addr : Nat
  bytes : Bytes
  available : Bool := true
  deriving DecidableEq, Repr

def Buffer.size (b : Buffer) : Nat := b.bytes.length

/-! ## transfers -/

structure ExpertRecord where
  layerId : LayerId
  expertId : ExpertId
  offset : Nat
  size : Nat
  deriving DecidableEq, Repr

structure TransferRequest where
  layerId : LayerId
  expertId : ExpertId
  destination : MemoryTier := .Vram
  priority : Int := 0
  source : MemoryTier := .Nvme
  hostBuffer : Option Buffer := none
  sourcePinnedBuffer : Option Buffer := none
  sourceDeviceBuffer : Option Buffer := none
  deriving DecidableEq, Repr

inductive TransferStatus where
  | Completed
  | Cancelled
  deriving DecidableEq, Repr

structure TransferResult where
  status : TransferStatus := .Cancelled
  record : ExpertRecord := ⟨0, 0, 0, 0⟩
  buffer : Option Buffer := none
  pinnedBuffer : Option Buffer := none
  deviceBuffer : Option Buffer := none
  source : MemoryTier := .Nvme
  destination : MemoryTier := .Ram
  nvmeBytes : Nat := 0
  ramToVramBytes : Nat := 0
  deriving DecidableEq, Repr

/-- what `submit(request).future().get()` does: it returns a result, or it throws (the future
rethrows the exception of the worker, or `submit` refuses the request) -/
abbrev TransferOutcome := Except Exn TransferResult

/-- what each submitted transfer comes to, by its number and its request -/
abbrev Transfers := Nat → TransferRequest → TransferOutcome

end HyperMoE
