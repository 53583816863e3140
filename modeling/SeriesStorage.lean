import SeriesStorage.Registry.Basic
import SeriesStorage.Registry.Config
import SeriesStorage.Proofs.Remote.Flush
import SeriesStorage.Proofs.Agreement.Visits
import SeriesStorage.Proofs.Remote.CoherentKeys
import SeriesStorage.Proofs.Remote.Delivery
import SeriesStorage.Proofs.Remote.CacheCoherence
import SeriesStorage.Proofs.Remote.FailedCreation
import SeriesStorage.Proofs.Remote.NativeExpiry
import SeriesStorage.Proofs.Remote.Isolation
import SeriesStorage.Proofs.Remote.RaceSafety
import SeriesStorage.Proofs.Memory.ConcurrentCreation
import SeriesStorage.Proofs.Memory.ConcurrentCalls
import SeriesStorage.Proofs.Deployment.NeverReused
import SeriesStorage.Proofs.Deployment.ReadBack
import SeriesStorage.Proofs.Deployment.Resubmission
import SeriesStorage.Proofs.Remote.RoundTrip
import SeriesStorage.Proofs.Remote.FailedWrites
import SeriesStorage.Proofs.Remote.SharedRequests
import SeriesStorage.Proofs.Remote.ExpiredSeries
import SeriesStorage.Proofs.Remote.StagedBatches
import SeriesStorage.Proofs.Point.FreePlaces
import SeriesStorage.Proofs.Point.MemberValues
import SeriesStorage.Proofs.Remote.SharedMembers
import SeriesStorage.Proofs.Memory.BatchDeletion
import SeriesStorage.Proofs.Remote.BatchRemoval
import SeriesStorage.Proofs.Remote.LockSafety
import SeriesStorage.Proofs.Point.WindowBuckets
import SeriesStorage.Proofs.Point.PaddedWindows
import SeriesStorage.Proofs.Remote.StoredRecords
import SeriesStorage.Proofs.Registry.ExpiredSeries
import SeriesStorage.Proofs.Deployment.BothPaths
