import HyperMoE.Backend.PoolHeadroom
import HyperMoE.Backend.CooperativeProduct
import HyperMoE.Scheduler.Eviction
import HyperMoE.Experts.Accounting
import HyperMoE.Experts.Leases
import HyperMoE.Experts.Statistics
import HyperMoE.Experts.Placement
import HyperMoE.Experts.VictimSelection
import HyperMoE.Experts.AgeAwareScore
import HyperMoE.Scheduler.Profiling
import HyperMoE.Scheduler.Rejection
import HyperMoE.Scheduler.Retention
import HyperMoE.Scheduler.Expiry
import HyperMoE.Scheduler.Ownership
import HyperMoE.Scheduler.Transitions
import HyperMoE.Scheduler.PrefetchOutcomes
import HyperMoE.Storage.StoreWriter
import HyperMoE.Storage.Checksum
import HyperMoE.Importer.SafeTensors
import HyperMoE.Importer.FusedSlices
import HyperMoE.Importer.RealCheckpointConverter
import HyperMoE.Memory.Delivery
import HyperMoE.Memory.MemoryPressureController
import HyperMoE.Runtime.MoERuntime
import HyperMoE.Transformer.Incremental
import HyperMoE.Transformer.CacheRefinement
import HyperMoE.Generation.Contract
import HyperMoE.Generation.Sampler
import HyperMoE.Generation.CacheSizing
import HyperMoE.Tensor.Quantization
import HyperMoE.Tensor.Containment
import HyperMoE.Models.CacheReservation
import HyperMoE.Prediction.Quality
import HyperMoE.Profiling.Lifetimes
import HyperMoE.Router.CudaRouterBackend
import HyperMoE.Generation.DeviceGeneration
import HyperMoE.Conversion.WeightConverter
import HyperMoE.Conversion.PackedWeights
