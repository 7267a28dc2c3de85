import Namros.Source.Audit
import Namros.Source.ObjectLock

/-!
# Bucket operations

The bucket closures of `internal/meta/kvrepo/repository.go:608-1176`, the validators of
`repository.go:5724-5757` and `internal/meta/validation.go`, and the quota builder of
`internal/meta/quota.go`. The configuration updates of a bucket are one read, one change of
the record and one write, followed for most of them by an audit event.
-/

namespace Namros.Source

open Library Transaction

structure CreateBucketRequest where
  (tenantID name region : String := "")
  objectLockEnabled : Bool := false
deriving DecidableEq

def EncryptionAlgorithm.text : EncryptionAlgorithm → String
  | .none => ""
  | .aes256 => "AES256"
  | .awsKMS => "aws:kms"
  | .other text => text

/-! ## Validators -/

/-- The rule loop of `validateBucketLifecycleConfiguration`. -/
def validateLifecycleRule (rule : LifecycleRule) : Except Error Unit := do
  match rule.status with
  | .enabled | .disabled => pure ()
  | .other _ =>
    throw (.invalidArgument "lifecycle rule status must be Enabled or Disabled")
  if ¬ (rule.expiration.days > 0 ∨ ¬ rule.expiration.date.isZero ∨
      rule.expiration.expiredObjectDeleteMarker ∨ rule.noncurrentDays > 0 ∨
      rule.daysAfterInitiation > 0) then
    throw (.invalidArgument "lifecycle rule must include at least one action")
  if rule.expiration.days < 0 ∨ rule.noncurrentDays < 0 ∨ rule.daysAfterInitiation < 0 then
    throw (.invalidArgument "lifecycle day values must be positive")

def validateBucketLifecycleConfiguration (rules : LifecycleConfiguration) : Except Error Unit :=
  if rules.length = 0 then
    .error (.invalidArgument "lifecycle configuration must include at least one rule")
  else if rules.length > 1000 then
    .error (.invalidArgument "lifecycle configuration cannot contain more than 1000 rules")
  else rules.forM validateLifecycleRule

def validateBucketEncryption (encryption : ServerSideEncryption) : Except Error Unit :=
  match encryption.algorithm with
  | .aes256 =>
    if encryption.keyID ≠ "" ∨ encryption.keyVersion ≠ "" then
      .error (.invalidArgument "AES256 bucket encryption cannot include a KMS key")
    else .ok ()
  | .awsKMS => .ok ()
  | _ => .error (.invalidArgument "bucket encryption algorithm must be AES256 or aws:kms")

def bucketObjectLockAuditDetails (config : BucketObjectLockConfiguration) : StringMap :=
  let retention := config.defaultRetention
  [("enabled", if config.enabled then "true" else "false")] ++
    (if retention.mode ≠ .none then [("default_retention_mode", retention.mode.text)] else []) ++
    (if retention.days > 0 then [("default_retention_days", toString retention.days)] else []) ++
    (if retention.years > 0 then [("default_retention_years", toString retention.years)] else [])

/-! ## Buckets -/

/-- The bucket of a request, refusing with `ErrNotFound` when it is absent. -/
def requireBucket (bucketID : String) : Tx Bucket := do
  let bucket ← getJSON (.bucketByID bucketID)
  orFail bucket .notFound

/-- The id loop of `CreateBucket` from the `attempt`-th id on. -/
def createBucketFrom (context : CallContext) (req : CreateBucketRequest) : Nat → Nat → Tx Bucket
  | 0, _ => throw (.unavailable "bucket id collision retry budget exhausted")
  | remaining + 1, attempt => do
    let bucketID ← orFail (context.newID .bucket attempt) (.unavailable "generate bucket id")
    let taken ← getJSON (.bucketByID bucketID)
    match taken with
    | some _ => createBucketFrom context req remaining (attempt + 1)
    | none => do
      let bucket : Bucket :=
        { bucketID := bucketID, tenantID := req.tenantID, name := req.name,
          region := req.region, createdAt := context.now 0 }
      let bucket := if req.objectLockEnabled then
          { bucket with objectLock := { enabled := true }, versioningState := .enabled }
        else bucket
      setJSON (.bucketByID bucket.bucketID) bucket
      setJSON (.bucketByName bucket.name) bucket.bucketID
      pure bucket

def createBucket (context : CallContext) (req : CreateBucketRequest) : Tx Bucket := do
  failIf (req.tenantID = "" ∨ req.name = "" ∨ req.region = "")
    (.invalidArgument "bucket fields are required")
  let taken ← getJSON (.bucketByName req.name)
  failIf taken.isSome (.alreadyExists "")
  createBucketFrom context req idCollisionRetryLimit 0

/-- Read a bucket, change it and write it back. -/
def updateBucket (bucketID : String) (update : Bucket → Bucket) : Tx Bucket := do
  let bucket ← requireBucket bucketID
  let bucket := update bucket
  setJSON (.bucketByID bucket.bucketID) bucket
  pure bucket

/-- `updateBucket` followed by the audit event of the change. -/
def updateBucketAudited (platform : Platform) (context : CallContext) (bucketID : String)
    (update : Bucket → Bucket) (audit : AuditContext) (action : String) (details : StringMap) :
    Tx Bucket := do
  let bucket ← updateBucket bucketID update
  let _ ← appendAuditEvent platform
    (transitionAuditEvent audit action bucket.bucketID "" "" details) (context.now 0)
  pure bucket

/-- The check the update operations make on their bucket id. -/
def requireBucketID (bucketID : String) : Tx Unit :=
  failIf (bucketID = "") (.invalidArgument "bucket id is required")

/-- `PutBucketVersioning`: a bucket with object lock stays versioned. -/
def putBucketVersioning (bucketID : String) (state : BucketVersioningState) : Tx Bucket := do
  requireBucketID bucketID
  failIf (state ≠ .enabled ∧ state ≠ .suspended)
    (.invalidArgument "versioning state must be Enabled or Suspended")
  let bucket ← requireBucket bucketID
  failIf (bucket.objectLock.enabled ∧ state ≠ .enabled)
    (.invalidArgument "object lock bucket versioning cannot be suspended")
  let bucket := { bucket with versioningState := state }
  setJSON (.bucketByID bucket.bucketID) bucket
  pure bucket

def putBucketCORS (bucketID : String) (rules : List CORSRule) : Tx Bucket := do
  requireBucketID bucketID
  updateBucket bucketID fun bucket => { bucket with corsRules := rules }

def deleteBucketCORS (bucketID : String) : Tx Bucket :=
  updateBucket bucketID fun bucket => { bucket with corsRules := [] }

def putBucketLifecycle (platform : Platform) (context : CallContext) (bucketID : String)
    (rules : LifecycleConfiguration) (audit : AuditContext) : Tx Bucket := do
  requireBucketID bucketID
  ofOutcome (validateBucketLifecycleConfiguration rules)
  updateBucketAudited platform context bucketID (fun bucket => { bucket with lifecycle := rules })
    audit "put_bucket_lifecycle" [("rule_count", toString rules.length)]

def deleteBucketLifecycle (platform : Platform) (context : CallContext) (bucketID : String)
    (audit : AuditContext) : Tx Bucket :=
  updateBucketAudited platform context bucketID (fun bucket => { bucket with lifecycle := [] })
    audit "delete_bucket_lifecycle" []

def putBucketEncryption (platform : Platform) (context : CallContext) (bucketID : String)
    (encryption : ServerSideEncryption) (audit : AuditContext) : Tx Bucket := do
  requireBucketID bucketID
  ofOutcome (validateBucketEncryption encryption)
  updateBucketAudited platform context bucketID
    (fun bucket => { bucket with defaultEncryption := encryption }) audit "put_bucket_encryption"
    [("algorithm", encryption.algorithm.text), ("key_id", encryption.keyID)]

def deleteBucketEncryption (platform : Platform) (context : CallContext) (bucketID : String)
    (audit : AuditContext) : Tx Bucket :=
  updateBucketAudited platform context bucketID
    (fun bucket => { bucket with defaultEncryption := {} }) audit "delete_bucket_encryption" []

def putBucketPolicy (platform : Platform) (context : CallContext) (bucketID : String)
    (policy : PolicyDocument) (audit : AuditContext) : Tx Bucket := do
  requireBucketID bucketID
  failIf (policy.statements = []) (.invalidArgument "bucket policy statements are required")
  updateBucketAudited platform context bucketID (fun bucket => { bucket with policy := policy })
    audit "put_bucket_policy" [("statement_count", toString policy.statements.length)]

def deleteBucketPolicy (platform : Platform) (context : CallContext) (bucketID : String)
    (audit : AuditContext) : Tx Bucket :=
  updateBucketAudited platform context bucketID (fun bucket => { bucket with policy := {} })
    audit "delete_bucket_policy" []

/-- `PutBucketObjectLock`: enabling object lock enables versioning. -/
def putBucketObjectLock (platform : Platform) (context : CallContext) (bucketID : String)
    (configuration : BucketObjectLockConfiguration) (audit : AuditContext) : Tx Bucket := do
  requireBucketID bucketID
  ofOutcome (validateBucketObjectLockConfiguration configuration)
  updateBucketAudited platform context bucketID
    (fun bucket => { bucket with objectLock := configuration, versioningState := .enabled })
    audit "put_bucket_object_lock" (bucketObjectLockAuditDetails configuration)

/-! ## Names and listings -/

def getBucketByName (name : String) : Tx Bucket := do
  let bucketID ← getJSON (.bucketByName name)
  let bucketID ← orFail bucketID .notFound
  requireBucket bucketID

/-- The heads among scanned keys. -/
def asObjectHead : (k : Key) → k.Value → Option ObjectHeadEntry
  | .objectHead _ _, head => some head
  | _, _ => none

/-- `DeleteBucket`: refused while the bucket has a head or a committed version. -/
def deleteBucket (bucketID : String) : Tx Unit := do
  let bucket ← requireBucket bucketID
  let heads ← scanRecords asObjectHead (objectHeadPrefix bucketID)
  let versions ← scanRecords asObjectVersion (versionsBucketPrefix bucketID)
  failIf (heads ≠ [] ∨ ∃ entry ∈ versions, entry.2.state = .committed) .bucketNotEmpty
  deleteKey (.bucketByID bucketID)
  deleteKey (.bucketQuota bucketID)
  deleteKey (.bucketByName bucket.name)

end Namros.Source
