import NpuDriver.Proof.CommandStream
import NpuDriver.Proof.CommandId
import NpuDriver.Proof.HandleCompleteness
import NpuDriver.Proof.DanglingHandles
import NpuDriver.Proof.Resources
import NpuDriver.Proof.DeviceRanges
import NpuDriver.Proof.CacheIntegrity
import NpuDriver.Proof.CacheBound
import NpuDriver.Proof.CacheProcesses
import NpuDriver.Proof.CacheKey
import NpuDriver.Proof.PointerLookup
import NpuDriver.Proof.ScratchExclusivity
import NpuDriver.Proof.PreemptionQueues
import NpuDriver.Proof.SubmissionTracking
import NpuDriver.Proof.MetricActivation
import NpuDriver.Proof.HandleOwnership
import NpuDriver.Proof.InferenceExclusivity
import NpuDriver.Proof.BuildFlags
import NpuDriver.Proof.JobClosing
import NpuDriver.Proof.UpdateAtomicity
import NpuDriver.Proof.FillPaths
import NpuDriver.Proof.ImmediateAppends
import NpuDriver.Proof.AppliedUpdates
import NpuDriver.Proof.Rerecording
import NpuDriver.Proof.DigestRendering
import NpuDriver.Proof.MetricMaximum
import NpuDriver.Proof.ArgumentAtomicity
import NpuDriver.Proof.CopyTiling
import NpuDriver.Proof.RegionRows
import NpuDriver.Proof.BlobBounds
import NpuDriver.Proof.SubmissionRetry
import NpuDriver.Proof.EventWaits
import NpuDriver.Proof.DescribedMetrics
import NpuDriver.Proof.FencedSubmissions
import NpuDriver.Proof.SubmissionSteps
import NpuDriver.Proof.InOrderExecution
import NpuDriver.Proof.UserPages
import NpuDriver.Proof.AbsoluteTimeouts
import NpuDriver.Proof.ScratchSizes
import NpuDriver.Proof.MetricQuerySlots
import NpuDriver.Proof.EventPools
import NpuDriver.Proof.IdleReleases
import NpuDriver.Proof.CleanerProgress
import NpuDriver.Proof.WorkloadQueues
import NpuDriver.Proof.CompilerLeaks
import NpuDriver.Proof.StreamedReports
import NpuDriver.Proof.CachedCreations
import NpuDriver.Proof.MemoryCounters
import NpuDriver.Proof.AllocatedBuffers
import NpuDriver.Proof.TensorLayouts
import NpuDriver.Proof.FetchedLogs
import NpuDriver.Proof.ProfilingPools
import NpuDriver.Proof.DescriptorAccounts
import NpuDriver.Proof.FoundDevices
import NpuDriver.Proof.DeviceLinks
