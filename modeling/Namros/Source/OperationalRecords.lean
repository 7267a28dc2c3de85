import Namros.Source.Records

/-!
# Operational records

Tenants, access keys, encryption keys, and the records of the background workers (volume
pools and drains, leases) from `internal/meta/model/model.go`. A record of which no operation
here reads or writes a field (schema, compliance profiles, garbage collection, dedupe
operations, worker operations and controls, migrations) is its stored text.

Status texts that the repository stores unchecked are inductive types with an `other`
case for any further text. The two `float64` percentages of a pool member are integers
here: the repository only stores them and compares them with 0 and 100.
-/

namespace Namros.Source

structure UnreadRecord where
  text : String := ""
deriving DecidableEq

/-! ## Tenants and keys -/

structure Tenant where
  (tenantID displayName : String := "")
  createdAt : Time := 0
deriving DecidableEq

structure TenantQuota where
  tenantID : String := ""
  (maxBytes maxObjects maxActiveUploads : Int := 0)
  (createdAt updatedAt : Time := 0)
deriving DecidableEq

structure TenantUsage where
  tenantID : String := ""
  (objectBytes objectCount activeUploads : Int := 0)
  (reconciledAt updatedAt createdAt : Time := 0)
  (reconciliationID reconciliationErr : String := "")
deriving DecidableEq

structure AccessKey where
  (tenantID accessKeyID secretHash status : String := "")
  permissions : List String := []
  createdAt : Time := 0
deriving DecidableEq

inductive KMSKeyState
  | unset
  | active
  | disabled
  | pendingDeletion
  | deleted
  | other (text : String)
deriving DecidableEq

def KMSKeyState.text : KMSKeyState → String
  | .unset => ""
  | .active => "active"
  | .disabled => "disabled"
  | .pendingDeletion => "pending_deletion"
  | .deleted => "deleted"
  | .other text => text

structure KMSKeyRecord where
  (keyID keyVersion : String := "")
  state : KMSKeyState := .unset
  (createdAt updatedAt : Time := 0)
deriving DecidableEq

def normalizeKMSKeyState : KMSKeyState → KMSKeyState
  | .unset => .active
  | .active => .active
  | .disabled => .disabled
  | .pendingDeletion => .pendingDeletion
  | .deleted => .deleted
  | .other _ => .disabled

def kmsKeyAllowsDelete (state : KMSKeyState) : Bool :=
  normalizeKMSKeyState state == .active

/-! ## Volume pools and drains -/

/-- The status of one attempt, stored as the caller gave it. -/
abbrev AttemptStatus := String

inductive VolumePoolState
  | unset
  | active
  | readOnly
  | draining
  | degraded
  | full
  | offline
  | other (text : String)
deriving DecidableEq

structure VolumePoolMember where
  volumeID : String := ""
  state : VolumePoolState := .unset
  readOnly : Bool := false
  weight : Int := 0
  availableBytes : UInt64 := 0
  (usedPercent highWatermarkPercent : Int := 0)
deriving DecidableEq

structure VolumePool where
  poolID : String := ""
  generation : UInt64 := 0
  members : List VolumePoolMember := []
deriving DecidableEq

inductive VolumeDrainOperationStatus
  | unset
  | running
  | succeeded
  | retryPending
  | failed
  | canceled
  | other (text : String)
deriving DecidableEq

structure VolumeDrainAttempt where
  (bucketID key versionID sourceSegmentID : String := "")
  sourceRef : SegmentRef := {}
  targetSegmentID : String := ""
  targetRef : SegmentRef := {}
  status : AttemptStatus := ""
  (isProtected retryable : Bool := false)
  error : String := ""
deriving DecidableEq

structure VolumeDrainOperationRecord where
  (operationID resumeOfOperationID poolID sourceVolumeID targetVolumeID ownerID : String := "")
  status : VolumeDrainOperationStatus := .unset
  cursor : String := ""
  (startedAt finishedAt : Time := 0)
  (scanned copied skipped protectedCount retryable : Int := 0)
  attempts : List VolumeDrainAttempt := []
  createdAt : Time := 0
deriving DecidableEq

/-! ## Workers -/

structure WorkerLease where
  (leaseID workerKind shardID ownerID : String := "")
  generation : UInt64 := 0
  cursor : String := ""
  (acquiredAt updatedAt expiresAt : Time := 0)
deriving DecidableEq

end Namros.Source
