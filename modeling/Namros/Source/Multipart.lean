import Namros.Source.Objects

/-!
# Multipart uploads

The multipart closures of `internal/meta/kvrepo/repository.go:3589-4094` and their helpers:
the upload record and its by-key index, the parts, and the completion record that makes a
completion resumable. The tenant quota helpers are `repository.go:322-376` with
`internal/meta/quota.go`, the limits `internal/meta/scale.go`.
-/

namespace Namros.Source

open Library Transaction

structure CreateMultipartUploadRequest where
  (bucketID key contentType : String := "")
  storageClass : StorageClassSnapshot := {}
  serverSideEncryption : ServerSideEncryption := {}
  (userMetadata tags : StringMap := [])
  objectLockRetention : ObjectLockRetention := {}
  objectLockLegalHold : LegalHoldStatus := .unset
deriving DecidableEq

/-- `meta.MultipartUploadRequest`, also `meta.MultipartCompletionStateRequest`. -/
structure MultipartUploadRequest where
  (bucketID key uploadID : String := "")
deriving DecidableEq

structure PutMultipartPartRequest where
  upload : MultipartUploadRequest := {}
  (partNumber sizeBytes : Int := 0)
  etag : String := ""
  segmentRef : SegmentRef := {}
deriving DecidableEq

/-- `meta.PrepareMultipartCompletionRequest`; `meta.CompleteMultipartUploadRequest` has the same
fields but the expected head version. -/
structure CompletionRequest where
  upload : MultipartUploadRequest := {}
  (objectVersionID expectedHeadVersionID etag : String := "")
  (sizeBytes partCount : Int := 0)
deriving DecidableEq

/-- `meta.CleanupMultipartUploadPartsResult`. -/
structure CleanupResult where
  upload : MultipartUpload := {}
  deletedParts : Nat := 0
  hasMore : Bool := false
deriving DecidableEq

def maxMultipartParts : Int := 10000
def defaultMultipartCleanupLimit : Int := 256
def maxMultipartCleanupLimit : Int := 1000

def normalizeMultipartCleanupLimit (limit : Int) : Nat :=
  if limit ≤ 0 then defaultMultipartCleanupLimit.toNat
  else if limit > maxMultipartCleanupLimit then maxMultipartCleanupLimit.toNat
  else limit.toNat

def validateCompletedMultipartPartCount (partCount : Int) : Except Error Unit :=
  if partCount < 1 ∨ partCount > maxMultipartParts then
    .error (.invalidArgument ("completed multipart upload has " ++ toString partCount ++
      " parts, max " ++ toString maxMultipartParts))
  else .ok ()

/-- The loop of `ValidateMultipartPartNumberSelection`. -/
def validatePartNumbers : List Int → List Int → Except Error Unit
  | _, [] => .ok ()
  | seen, partNumber :: rest =>
    if partNumber < 1 ∨ partNumber > maxMultipartParts then
      .error (.invalidArgument ("multipart part number must be between 1 and " ++
        toString maxMultipartParts))
    else if partNumber ∈ seen then
      .error (.invalidArgument ("multipart part number " ++ toString partNumber ++
        " is duplicated"))
    else validatePartNumbers (partNumber :: seen) rest

def validateMultipartPartNumberSelection (partNumbers : List Int) : Except Error Unit :=
  if partNumbers.length < 1 ∨ (partNumbers.length : Int) > maxMultipartParts then
    .error (.invalidArgument ("multipart part selection has " ++ toString partNumbers.length ++
      " parts, max " ++ toString maxMultipartParts))
  else validatePartNumbers [] partNumbers

/-! ## Tenant quota -/

def enforceTenantActiveUploadQuota (tenantID : String) : Tx Unit :=
  if tenantID = "" then pure ()
  else do
    let quota ← getJSON (.tenantQuota tenantID)
    let maxActiveUploads := (quota.map TenantQuota.maxActiveUploads).getD 0
    let usage ← getJSON (.tenantUsage tenantID)
    let activeUploads := (usage.map TenantUsage.activeUploads).getD 0
    failIf (maxActiveUploads > 0 ∧ maxActiveUploads ≤ activeUploads)
      (.quotaExceeded ("tenant " ++ quoted tenantID ++ " active multipart uploads " ++
        toString activeUploads ++ " reached max " ++ toString maxActiveUploads))

/-- `ApplyTenantActiveUploadDelta`. -/
def tenantUsageAfter (existing : TenantUsage) (tenantID : String) (delta : Int)
    (now hostNow : Time) : Except Error TenantUsage :=
  if tenantID = "" then .error (.invalidArgument "tenant id is required")
  else if existing.tenantID ≠ "" ∧ existing.tenantID ≠ tenantID then
    .error (.invalidArgument ("tenant usage record belongs to " ++ quoted existing.tenantID))
  else
    let now := if now.isZero then hostNow else now
    .ok { existing with
      tenantID := tenantID
      activeUploads := max 0 (existing.activeUploads + delta)
      updatedAt := now
      createdAt := if existing.createdAt.isZero then now else existing.createdAt }

def applyTenantActiveUploadDelta (tenantID : String) (delta : Int) (now hostNow : Time) :
    Tx Unit :=
  if tenantID = "" then pure ()
  else do
    let tenant ← getJSON (.tenant tenantID)
    match tenant with
    | none => pure ()
    | some _ => do
      let existing ← getJSON (.tenantUsage tenantID)
      let usage ← ofOutcome (tenantUsageAfter (existing.getD {}) tenantID delta now hostNow)
      setJSON (.tenantUsage tenantID) usage

def applyTenantActiveUploadDeltaForBucket (bucketID : String) (delta : Int) (now hostNow : Time) :
    Tx Unit := do
  let bucket ← getJSON (.bucketByID bucketID)
  match bucket with
  | none => pure ()
  | some bucket => applyTenantActiveUploadDelta bucket.tenantID delta now hostNow

/-! ## Uploads -/

/-- `setMultipartUpload`: only active uploads are listed by key. -/
def setMultipartUpload (upload : MultipartUpload) (path : GoString := upload.key) : Tx Unit := do
  setJSON (.multipartUpload upload.bucketID upload.uploadID) upload
  if upload.state ≠ .active then
    deleteKey (.multipartUploadByKey upload.bucketID path upload.uploadID)
  else setJSON (.multipartUploadByKey upload.bucketID path upload.uploadID) upload.uploadID

def getUpload (req : MultipartUploadRequest) (path : GoString := req.key) :
    Tx MultipartUpload := do
  failIf (req.bucketID = "" ∨ req.key = "" ∨ req.uploadID = "")
    (.invalidArgument "multipart upload fields are required")
  let upload ← getJSON (.multipartUpload req.bucketID req.uploadID)
  let upload ← orFail upload .notFound
  failIf (upload.key ≠ path) .notFound
  pure upload

def getActiveUpload (req : MultipartUploadRequest) (path : GoString := req.key) :
    Tx MultipartUpload := do
  let upload ← getUpload req path
  failIf (upload.state ≠ .active) .notFound
  pure upload

def nextMultipartUploadID (context : CallContext) (bucketID : String) : Tx String :=
  nextFreeID (context.newID .upload) (.multipartUpload bucketID ·)
    "generate multipart upload id" "multipart upload id collision retry budget exhausted"
    idCollisionRetryLimit 0

def createMultipartUpload (context : CallContext) (req : CreateMultipartUploadRequest)
    (path : GoString := req.key) : Tx MultipartUpload := do
  failIf (req.bucketID = "" ∨ req.key = "")
    (.invalidArgument "bucket id and object key are required")
  ofOutcome (validateObjectLockState req.objectLockRetention req.objectLockLegalHold)
  let bucket ← requireBucket req.bucketID
  enforceTenantActiveUploadQuota bucket.tenantID
  let uploadID ← nextMultipartUploadID context req.bucketID
  let now := context.now 0
  let upload : MultipartUpload :=
    { uploadID := uploadID, bucketID := req.bucketID, key := req.key,
      contentType := req.contentType, storageClass := req.storageClass,
      serverSideEncryption := req.serverSideEncryption, userMetadata := req.userMetadata,
      tags := req.tags, objectLockRetention := req.objectLockRetention,
      objectLockLegalHold := req.objectLockLegalHold, state := .active, createdAt := now,
      updatedAt := now }
  setMultipartUpload upload path
  applyTenantActiveUploadDelta bucket.tenantID 1 now (context.now 1)
  pure upload

/-! ## Parts -/

/-- The `int64` that is congruent to a number. -/
def wrapInt64 (n : Int) : Int := n.bmod (2 ^ 64)

def applyMultipartPartSummary (upload : MultipartUpload) (part : MultipartPart)
    (previous : Option MultipartPart) (now : Time) : MultipartUpload :=
  let upload := match previous with
    | none => { upload with
        partCount := upload.partCount + 1
        totalPartSizeBytes := wrapInt64 (upload.totalPartSizeBytes + part.sizeBytes) }
    | some previous => { upload with
        totalPartSizeBytes :=
          wrapInt64 (upload.totalPartSizeBytes + (part.sizeBytes - previous.sizeBytes)) }
  { upload with
    maxPartNumber := max upload.maxPartNumber part.partNumber
    partsUpdatedAt := now
    updatedAt := now }

/-- `PutMultipartPart`'s closure; `captured` is the captured `previous`, which is only written
when an old part exists. Returns the part and the part it replaced. -/
def putMultipartPartWith (context : CallContext) (req : PutMultipartPartRequest)
    (captured : Option MultipartPart) (path : GoString := req.upload.key) :
    Tx (MultipartPart × Option MultipartPart) := do
  failIf (req.upload.bucketID = "" ∨ req.upload.key = "" ∨ req.upload.uploadID = "" ∨
    req.partNumber < 1 ∨ req.partNumber > maxMultipartParts)
    (.invalidArgument "multipart part fields are invalid")
  let upload ← getActiveUpload req.upload path
  let old ← getJSON (.multipartPart req.upload.bucketID req.upload.uploadID req.partNumber.toNat)
  let previous := old.orElse fun _ => captured
  let now := context.now 0
  let part : MultipartPart :=
    { uploadID := req.upload.uploadID, partNumber := req.partNumber.toNat,
      sizeBytes := req.sizeBytes, etag := req.etag, segmentRef := req.segmentRef,
      createdAt := (previous.map MultipartPart.createdAt).getD now, updatedAt := now }
  setJSON (.multipartPart req.upload.bucketID req.upload.uploadID req.partNumber.toNat) part
  setMultipartUpload (applyMultipartPartSummary upload part previous now)
  pure (part, previous)

def putMultipartPart (context : CallContext) (req : PutMultipartPartRequest)
    (path : GoString := req.upload.key) : Tx (MultipartPart × Option MultipartPart) :=
  putMultipartPartWith context req none path

def partPrefix (bucketID uploadID : String) : Bytes :=
  below [bytes "buckets", esc bucketID, bytes "multipart", esc uploadID, bytes "parts"] []

/-- The parts among scanned keys. -/
def asMultipartPart : (k : Key) → k.Value → Option MultipartPart
  | .multipartPart _ _ _, part => some part
  | _, _ => none

def listParts (req : MultipartUploadRequest) : Tx (List MultipartPart) := do
  let found ← scanRecords asMultipartPart (partPrefix req.bucketID req.uploadID)
  pure ((found.map Prod.snd).mergeSort fun a b => a.partNumber ≤ b.partNumber)

/-- The part loop of `GetMultipartParts`. -/
def partsNumbered (bucketID uploadID : String) : List Int → Tx (List MultipartPart)
  | [] => pure []
  | partNumber :: rest => do
    let part ← getJSON (.multipartPart bucketID uploadID partNumber.toNat)
    let parts ← partsNumbered bucketID uploadID rest
    pure (part.toList ++ parts)

/-- `GetMultipartParts`'s closure, which appends to the captured result. -/
def getMultipartPartsFrom (req : MultipartUploadRequest) (partNumbers : List Int)
    (parts : List MultipartPart) : Tx (List MultipartPart) := do
  failIf (req.bucketID = "" ∨ req.key = "" ∨ req.uploadID = "")
    (.invalidArgument "multipart upload fields are required")
  ofOutcome (validateMultipartPartNumberSelection partNumbers)
  let _ ← getActiveUpload req
  let found ← partsNumbered req.bucketID req.uploadID partNumbers
  pure (parts ++ found)

def getMultipartParts (req : MultipartUploadRequest) (partNumbers : List Int) :
    Tx (List MultipartPart) :=
  getMultipartPartsFrom req partNumbers []

/-! ## Completion -/

def getMultipartCompletion (req : MultipartUploadRequest) (path : GoString := req.key) :
    Tx MultipartCompletionRecord := do
  let record ← getJSON (.multipartCompletion req.bucketID req.uploadID)
  let record ← orFail record .notFound
  failIf (record.key ≠ path) .notFound
  pure record

def multipartCompletionMatches (record : MultipartCompletionRecord) (req : CompletionRequest)
    (path : GoString := req.upload.key) : Bool :=
  record.bucketID == req.upload.bucketID && record.key == path &&
    record.uploadID == req.upload.uploadID && record.objectVersionID == req.objectVersionID &&
    record.expectedHeadVersionID == req.expectedHeadVersionID && record.etag == req.etag &&
    record.sizeBytes == req.sizeBytes && record.partCount == req.partCount

def prepareMultipartCompletion (context : CallContext) (req : CompletionRequest)
    (path : GoString := req.upload.key) : Tx MultipartCompletionRecord := do
  failIf (req.upload.bucketID = "" ∨ req.upload.key = "" ∨ req.upload.uploadID = "" ∨
    req.objectVersionID = "" ∨ req.etag = "" ∨ req.partCount < 1)
    (.invalidArgument "multipart completion fields are required")
  let existing ← getJSON (.multipartCompletion req.upload.bucketID req.upload.uploadID)
  match existing with
  | some existing => do
    failIf (¬ multipartCompletionMatches existing req path) (.casConflict "")
    pure existing
  | none => do
    let upload ← getUpload req.upload path
    failIf (upload.state ≠ .active) .notFound
    let now := context.now 0
    let record : MultipartCompletionRecord :=
      { bucketID := req.upload.bucketID, key := req.upload.key, uploadID := req.upload.uploadID,
        objectVersionID := req.objectVersionID,
        expectedHeadVersionID := req.expectedHeadVersionID, etag := req.etag,
        sizeBytes := req.sizeBytes, partCount := req.partCount, state := .prepared,
        createdAt := now, updatedAt := now }
    setJSON (.multipartCompletion req.upload.bucketID req.upload.uploadID) record
    pure record

def multipartCompletionStateRank : MultipartCompletionState → Nat
  | .completed => 3
  | .published => 2
  | .prepared => 1
  | .unset => 0

def markMultipartCompletionState (context : CallContext) (req : MultipartUploadRequest)
    (state : MultipartCompletionState) (path : GoString := req.key) :
    Tx MultipartCompletionRecord := do
  let record ← getMultipartCompletion req path
  if multipartCompletionStateRank record.state < multipartCompletionStateRank state then do
    let record := { record with state := state, updatedAt := context.now 0 }
    setJSON (.multipartCompletion req.bucketID req.uploadID) record
    pure record
  else pure record

def completeMultipartUpload (context : CallContext) (req : CompletionRequest)
    (path : GoString := req.upload.key) : Tx MultipartUpload := do
  failIf (req.objectVersionID = "" ∨ req.etag = "")
    (.invalidArgument "completed object version and etag are required")
  let upload ← getUpload req.upload path
  match upload.state with
  | .completed => pure upload
  | .active => do
    ofOutcome (validateCompletedMultipartPartCount req.partCount)
    let now := context.now 0
    let upload := { upload with
      state := .completed
      completedVersionID := req.objectVersionID
      completedETag := req.etag
      completedSizeBytes := req.sizeBytes
      completedPartCount := req.partCount
      completedAt := now
      partsCleanupState := .pending
      partsCleanupDeleted := 0
      partsCleanupUpdatedAt := now
      updatedAt := now }
    setMultipartUpload upload
    applyTenantActiveUploadDeltaForBucket upload.bucketID (-1) now (context.now 1)
    pure upload
  | _ => throw .notFound

/-- `AbortMultipartUpload`: returns the parts whose segments are to be deleted. -/
def abortMultipartUpload (context : CallContext) (req : MultipartUploadRequest)
    (path : GoString := req.key) : Tx (List MultipartPart) := do
  let upload ← getUpload req path
  match upload.state with
  | .aborted => listParts req
  | .active => do
    let parts ← listParts req
    let now := context.now 0
    let upload := { upload with
      state := .aborted
      partsCleanupState := .pending
      partsCleanupDeleted := 0
      partsCleanupUpdatedAt := now
      updatedAt := now }
    setMultipartUpload upload
    applyTenantActiveUploadDeltaForBucket upload.bucketID (-1) now (context.now 1)
    pure parts
  | _ => throw .notFound

/-- `partKeysForCleanup`: the first `limit` part keys, and whether there are more. -/
def partKeysForCleanup (req : MultipartUploadRequest) (limit : Nat) : Tx (List Key × Bool) :=
  fun s =>
    let keys := (OrderedStore.list keyCode (partPrefix req.bucketID req.uploadID) [] (limit + 1)
      s).1
    .ok (if keys.length > limit then (keys.take limit, true) else (keys, false), s)

/-- The delete loop of `CleanupMultipartUploadParts`. -/
def deleteKeys (keys : List Key) : Tx Unit := fun s => .ok ((), OrderedStore.eraseAll keys s)

def cleanupMultipartUploadParts (context : CallContext) (req : MultipartUploadRequest)
    (limit : Int) (path : GoString := req.key) : Tx CleanupResult := do
  let upload ← getUpload req path
  failIf (upload.state = .active)
    (.invalidArgument "active multipart upload parts cannot be cleaned")
  failIf (upload.state ≠ .completed ∧ upload.state ≠ .aborted) .notFound
  let (keys, hasMore) ← partKeysForCleanup req (normalizeMultipartCleanupLimit limit)
  deleteKeys keys
  let now := context.now 0
  let upload := { upload with
    partsCleanupDeleted := upload.partsCleanupDeleted + keys.length
    partsCleanupUpdatedAt := now
    updatedAt := now
    partsCleanupState := if hasMore then .pending else .done }
  setMultipartUpload upload
  pure { upload := upload, deletedParts := keys.length, hasMore := hasMore }

end Namros.Source
