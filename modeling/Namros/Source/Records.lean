import Mathlib.Init

/-!
# Metadata records

The records of `internal/meta/model/model.go` and `internal/storage/storage.go` that the
key-value repository stores, with the source's fields. A Go zero value is the structure
with its field defaults.

Texts that are stored in JSON are Lean strings (JSON keeps exactly the valid UTF-8
texts); times are nanoseconds since Go's zero time, so `time.Time{}` is `0`; a Go map is
the list of its entries. Signed sizes and counters are integers without the 64-bit bound;
the head revision is a `UInt64` because it wraps. The source's clone helpers copy slices
and maps and are the identity on these values.
-/

namespace Namros.Source

/-- Nanoseconds since Go's zero time. -/
abbrev Time := Int

def Time.isZero (t : Time) : Bool := t == 0

/-- A Go `map[string]string`. -/
abbrev StringMap := List (String × String)

/-! ## Segments (`internal/storage/storage.go`) -/

structure StorageClassSnapshot where
  (storageClassID backend : String := "")
  parameters : StringMap := []
deriving DecidableEq

structure PlacementChunk where
  (logicalOffsetBytes sizeBytes : UInt64 := 0)
  volumeID : String := ""
  (offsetBytes lengthBytes : UInt64 := 0)
  storeID : String := ""
  shardID : UInt32 := 0
  chunkID : UInt64 := 0
  role : String := ""
deriving DecidableEq

structure PlacementSnapshot where
  (backend layout redundancyBackend profileID : String := "")
  (profileGeneration chunkSizeBytes : UInt64 := 0)
  parameters : StringMap := []
  chunks : List PlacementChunk := []
deriving DecidableEq

structure Digest where
  (algorithm hex : String := "")
deriving DecidableEq

structure EncryptionEnvelope where
  (algorithm keyID keyVersion wrappedDEK nonce : String := "")
  (plaintextSizeBytes ciphertextSizeBytes : UInt64 := 0)
  context : StringMap := []
deriving DecidableEq

structure SegmentRef where
  segmentID : String := ""
  storageClass : StorageClassSnapshot := {}
  placement : PlacementSnapshot := {}
  sizeBytes : UInt64 := 0
  digest : Digest := {}
  encryption : EncryptionEnvelope := {}
  createdAt : Time := 0
  sharedObjectID : String := ""
deriving DecidableEq

inductive DeleteReason
  | unset
  | publishFailed
  | objectOverwritten
  | multipartAborted
  | manualGC
  | dedupeReplaced
  | volumeDrained
  | other (text : String)
deriving DecidableEq

/-! ## Buckets -/

inductive BucketVersioningState
  | unversioned
  | enabled
  | suspended
  | other (text : String)
deriving DecidableEq

structure CORSRule where
  (allowedOrigins allowedMethods allowedHeaders exposeHeaders : List String := [])
  maxAgeSeconds : Int := 0
deriving DecidableEq

inductive LifecycleRuleStatus
  | enabled
  | disabled
  | other (text : String)
deriving DecidableEq

structure LifecycleExpiration where
  days : Int := 0
  date : Time := 0
  expiredObjectDeleteMarker : Bool := false
deriving DecidableEq

structure LifecycleRule where
  id : String := ""
  status : LifecycleRuleStatus := .other ""
  keyPrefix : String := ""
  expiration : LifecycleExpiration := {}
  (noncurrentDays daysAfterInitiation : Int := 0)
deriving DecidableEq

/-- `BucketLifecycleConfiguration`: its rules. -/
abbrev LifecycleConfiguration := List LifecycleRule

inductive ObjectLockMode
  | none
  | governance
  | compliance
  | other (text : String)
deriving DecidableEq

def ObjectLockMode.text : ObjectLockMode → String
  | .none => ""
  | .governance => "GOVERNANCE"
  | .compliance => "COMPLIANCE"
  | .other text => text

inductive LegalHoldStatus
  | unset
  | on
  | off
  | other (text : String)
deriving DecidableEq

def LegalHoldStatus.text : LegalHoldStatus → String
  | .unset => ""
  | .on => "ON"
  | .off => "OFF"
  | .other text => text

structure BucketDefaultRetention where
  mode : ObjectLockMode := .none
  (days years : Int := 0)
deriving DecidableEq

structure BucketObjectLockConfiguration where
  enabled : Bool := false
  defaultRetention : BucketDefaultRetention := {}
deriving DecidableEq

structure ObjectLockRetention where
  mode : ObjectLockMode := .none
  retainUntilDate : Time := 0
deriving DecidableEq

inductive EncryptionAlgorithm
  | none
  | aes256
  | awsKMS
  | other (text : String)
deriving DecidableEq

structure ServerSideEncryption where
  algorithm : EncryptionAlgorithm := .none
  (keyID keyVersion : String := "")
deriving DecidableEq

structure PolicyStatement where
  (sid effect : String := "")
  (principals actions resources : List String := [])
deriving DecidableEq

structure PolicyDocument where
  version : String := ""
  statements : List PolicyStatement := []
deriving DecidableEq

structure Bucket where
  (bucketID tenantID name region : String := "")
  versioningState : BucketVersioningState := .unversioned
  corsRules : List CORSRule := []
  lifecycle : LifecycleConfiguration := []
  defaultEncryption : ServerSideEncryption := {}
  objectLock : BucketObjectLockConfiguration := {}
  policy : PolicyDocument := {}
  createdAt : Time := 0
deriving DecidableEq

structure BucketQuota where
  bucketID : String := ""
  maxObjectSizeBytes : Int := 0
  (createdAt updatedAt : Time := 0)
deriving DecidableEq

/-! ## Objects -/

inductive ObjectVersionState
  | unset
  | pending
  | committed
deriving DecidableEq

inductive ObjectManifestEncoding
  | inline
  | chunked
deriving DecidableEq

structure ObjectManifestDescriptor where
  encoding : ObjectManifestEncoding := .inline
  (refCount chunkCount : Int := 0)
deriving DecidableEq

structure ObjectManifestChunk where
  (bucketID key versionID : String := "")
  chunkNumber : Nat := 0
  segmentRefs : List SegmentRef := []
  createdAt : Time := 0
deriving DecidableEq

structure ObjectHead where
  (bucketID key versionID : String := "")
  revision : UInt64 := 0
  sizeBytes : Int := 0
  (etag contentType : String := "")
  storageClass : StorageClassSnapshot := {}
  serverSideEncryption : ServerSideEncryption := {}
  segmentRef : SegmentRef := {}
  segmentRefs : List SegmentRef := []
  manifest : ObjectManifestDescriptor := {}
  (userMetadata tags : StringMap := [])
  objectLockRetention : ObjectLockRetention := {}
  objectLockLegalHold : LegalHoldStatus := .unset
  lastModified : Time := 0
  deleteMarker : Bool := false
deriving DecidableEq

/-- The stored form of a head: no segment references. -/
structure ObjectHeadEntry where
  (bucketID key versionID : String := "")
  revision : UInt64 := 0
  sizeBytes : Int := 0
  (etag contentType : String := "")
  storageClass : StorageClassSnapshot := {}
  serverSideEncryption : ServerSideEncryption := {}
  (userMetadata tags : StringMap := [])
  objectLockRetention : ObjectLockRetention := {}
  objectLockLegalHold : LegalHoldStatus := .unset
  lastModified : Time := 0
  deleteMarker : Bool := false
deriving DecidableEq

structure ObjectListEntry where
  (bucketID key versionID : String := "")
  revision : UInt64 := 0
  sizeBytes : Int := 0
  (etag contentType : String := "")
  storageClass : StorageClassSnapshot := {}
  lastModified : Time := 0
  deleteMarker : Bool := false
deriving DecidableEq

structure ObjectVersion where
  (bucketID key versionID versionSortKey : String := "")
  sizeBytes : Int := 0
  (etag contentType : String := "")
  storageClass : StorageClassSnapshot := {}
  serverSideEncryption : ServerSideEncryption := {}
  segmentRef : SegmentRef := {}
  segmentRefs : List SegmentRef := []
  manifest : ObjectManifestDescriptor := {}
  (userMetadata tags : StringMap := [])
  objectLockRetention : ObjectLockRetention := {}
  objectLockLegalHold : LegalHoldStatus := .unset
  state : ObjectVersionState := .unset
  (createdAt committedAt : Time := 0)
  deleteMarker : Bool := false
deriving DecidableEq

/-- `objectVersionIndexRecord`: where the version with a given id is stored. -/
structure ObjectVersionLocator where
  (key versionSortKey : String := "")
deriving DecidableEq

/-! ## Audit and protected references -/

structure AuditPrincipal where
  (tenantID accessKeyID displayName subject : String := "")
  (groups roles : List String := [])
  (sessionID externalIssuer policyVersion sourceIdentity : String := "")
  root : Bool := false
deriving DecidableEq

/-- The action is a free text in the source; the constants it uses are in the operations. -/
structure AuditEvent where
  (eventID action bucketID key versionID requestID reason : String := "")
  principal : AuditPrincipal := {}
  details : StringMap := []
  (previousHash eventHash : String := "")
  createdAt : Time := 0
deriving DecidableEq

inductive ProtectedRefReason
  | unset
  | objectLock
deriving DecidableEq

structure ProtectedRef where
  refID : String := ""
  reason : ProtectedRefReason := .unset
  (bucketID key versionID segmentID : String := "")
  segmentRef : SegmentRef := {}
  retentionMode : ObjectLockMode := .none
  retainUntilDate : Time := 0
  legalHold : LegalHoldStatus := .unset
  (createdAt updatedAt : Time := 0)
deriving DecidableEq

/-! ## Shared objects -/

structure SharedObject where
  (sharedObjectID tenantID bucketID key sourceVersionID : String := "")
  sizeBytes : Int := 0
  digest : Digest := {}
  storageClass : StorageClassSnapshot := {}
  segmentRefs : List SegmentRef := []
  (refCount protectedRootCount : Int := 0)
  (createdAt updatedAt : Time := 0)
deriving DecidableEq

structure SharedObjectRef where
  (refID sharedObjectID bucketID key versionID : String := "")
  segmentRefs : List SegmentRef := []
  (createdAt updatedAt : Time := 0)
deriving DecidableEq

/-! ## Multipart uploads -/

inductive MultipartUploadState
  | unset
  | active
  | completed
  | aborted
deriving DecidableEq

inductive PartsCleanupState
  | unset
  | pending
  | done
deriving DecidableEq

inductive MultipartCompletionState
  | unset
  | prepared
  | published
  | completed
deriving DecidableEq

structure MultipartUpload where
  (uploadID bucketID key contentType : String := "")
  storageClass : StorageClassSnapshot := {}
  serverSideEncryption : ServerSideEncryption := {}
  (userMetadata tags : StringMap := [])
  objectLockRetention : ObjectLockRetention := {}
  objectLockLegalHold : LegalHoldStatus := .unset
  state : MultipartUploadState := .unset
  (partCount totalPartSizeBytes maxPartNumber : Int := 0)
  partsUpdatedAt : Time := 0
  (completedVersionID completedETag : String := "")
  (completedSizeBytes completedPartCount : Int := 0)
  completedAt : Time := 0
  partsCleanupState : PartsCleanupState := .unset
  partsCleanupDeleted : Int := 0
  (partsCleanupUpdatedAt createdAt updatedAt : Time := 0)
deriving DecidableEq

structure MultipartCompletionRecord where
  (bucketID key uploadID objectVersionID expectedHeadVersionID etag : String := "")
  (sizeBytes partCount : Int := 0)
  state : MultipartCompletionState := .unset
  (createdAt updatedAt : Time := 0)
deriving DecidableEq

structure MultipartPart where
  uploadID : String := ""
  partNumber : Nat := 0
  sizeBytes : Int := 0
  etag : String := ""
  segmentRef : SegmentRef := {}
  (createdAt updatedAt : Time := 0)
deriving DecidableEq

end Namros.Source
