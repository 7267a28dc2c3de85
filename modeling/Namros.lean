import Namros.Guarantees.ByteKeys
import Namros.Guarantees.CacheCoherence
import Namros.Guarantees.CanonicalQuery
import Namros.Guarantees.ChunkIsolation
import Namros.Guarantees.ChunkedDecoding
import Namros.Guarantees.CompletionRetry
import Namros.Guarantees.DamagedManifests
import Namros.Guarantees.DedupeContent
import Namros.Guarantees.DrainContent
import Namros.Guarantees.ErrorClassification
import Namros.Guarantees.ExtentAllocation
import Namros.Guarantees.GatewayAdmission
import Namros.Guarantees.IdOrder
import Namros.Guarantees.MultipartSafety
import Namros.Guarantees.OverwriteParity
import Namros.Guarantees.PolicyDecisions
import Namros.Guarantees.PoolPlacement
import Namros.Guarantees.PoolRefresh
import Namros.Guarantees.PresignExpiry
import Namros.Guarantees.RangeReads
import Namros.Guarantees.StoreAgreement
import Namros.Guarantees.UploadAccounting
import Namros.Guarantees.UploadListing
import Namros.Guarantees.VersionListing
import Namros.Guarantees.VolumeCaches
import Namros.Guarantees.WorkerLeases
