import Namros.Source.Buckets
import Namros.Source.ProtectedRefs

/-!
# Object operations

The object closures of `internal/meta/kvrepo/repository.go:1178-2015` and their helpers.
Each operation validates its request and then runs its closure; the leading checks of the
source are the leading steps here, and since a failed `Tx` writes nothing, it does not
matter that the source makes them before the transaction starts. The object key of a
request is given twice: `path` is the string the client sent, and the request's own `key` the
text that JSON makes of it, which is what records keep.
-/

namespace Namros.Source

open Library Transaction

/-! ## Requests and results -/

/-- `meta.BeginPutObjectRequest`, also `meta.PutObjectVersionRequest`. -/
structure PutObjectRequest where
  (bucketID key : String := "")
  sizeBytes : Int := 0
  (etag contentType : String := "")
  storageClass : StorageClassSnapshot := {}
  serverSideEncryption : ServerSideEncryption := {}
  segmentRef : SegmentRef := {}
  segmentRefs : List SegmentRef := []
  (userMetadata tags : StringMap := [])
  objectLockRetention : ObjectLockRetention := {}
  objectLockLegalHold : LegalHoldStatus := .unset
deriving DecidableEq

structure CommitObjectVersionRequest where
  (bucketID key versionID expectedHeadVersionID : String := "")
deriving DecidableEq

structure DeleteObjectRequest where
  (bucketID key versionID : String := "")
  bypassGovernanceRetention : Bool := false
  bypassAudit : AuditContext := {}
deriving DecidableEq

structure ObjectTagsRequest where
  (bucketID key versionID : String := "")
  tags : StringMap := []
deriving DecidableEq

structure ObjectRetentionRequest where
  (bucketID key versionID : String := "")
  retention : ObjectLockRetention := {}
  bypassGovernanceRetention : Bool := false
  (bypassAudit audit : AuditContext := {})
deriving DecidableEq

structure ObjectLegalHoldRequest where
  (bucketID key versionID : String := "")
  legalHold : LegalHoldStatus := .unset
  audit : AuditContext := {}
deriving DecidableEq

structure PendingObjectVersion where
  version : ObjectVersion := {}
  baseHeadVersionID : String := ""
  baseHead : ObjectHead := {}
  baseHeadFound : Bool := false
deriving DecidableEq

structure PutObjectVersionResult where
  (head replacedHead : ObjectHead := {})
  replacedHeadFound : Bool := false
deriving DecidableEq

structure DeleteResult where
  deleted : Bool := false
  deletedVersionID : String := ""
  deleteMarker : Bool := false
  deletedVersion : ObjectVersion := {}
deriving DecidableEq

/-! ## Helpers -/

def nextObjectVersionID (context : CallContext) (bucketID : String) (key : GoString) : Tx String :=
  nextFreeID (context.newID .version) (.objectVersion bucketID key ·)
    "generate object version id" "object version id collision retry budget exhausted"
    idCollisionRetryLimit 0

/-- The version record a put request describes. -/
def PutObjectRequest.version (req : PutObjectRequest) (refs : List SegmentRef)
    (versionID : String) (state : ObjectVersionState) (createdAt committedAt : Time) :
    ObjectVersion :=
  { bucketID := req.bucketID, key := req.key, versionID := versionID,
    versionSortKey := versionID, sizeBytes := req.sizeBytes, etag := req.etag,
    contentType := req.contentType, storageClass := req.storageClass,
    serverSideEncryption := req.serverSideEncryption, segmentRef := firstSegmentRef refs,
    segmentRefs := refs, userMetadata := req.userMetadata, tags := req.tags,
    objectLockRetention := req.objectLockRetention,
    objectLockLegalHold := req.objectLockLegalHold, state := state, createdAt := createdAt,
    committedAt := committedAt }

/-- The old head version of an unversioned or suspended bucket is removed when a new version
becomes the head. -/
def removeReplacedVersion (bucket : Bucket) (bucketID : String) (key : GoString)
    (currentVersionID versionID : String) : Tx Unit :=
  if bucket.versioningState ≠ .enabled ∧ currentVersionID ≠ "" ∧ currentVersionID ≠ versionID then do
    let old ← findVersionByID bucketID key currentVersionID
    match old with
    | none => pure ()
    | some (oldKey, oldVersion) => do
      deleteProtectedRefsForVersion oldVersion.bucketID oldVersion.key oldVersion.versionID
      deleteObjectVersionRecord oldKey oldVersion
  else pure ()

def checkDeleteKMSAdmission (encryption : ServerSideEncryption) : Tx Unit :=
  if encryption.algorithm ≠ .awsKMS ∨ trimSpace encryption.keyID = "" then pure ()
  else do
    let key ← getJSON (.kmsKey (trimSpace encryption.keyID))
    match key with
    | none => pure ()
    | some key =>
      failIf (¬ kmsKeyAllowsDelete key.state)
        (.kmsKeyUnavailable ("kms key " ++ quoted key.keyID ++ " state " ++
          quoted key.state.text ++ " does not allow delete"))

/-! ## Writing -/

/-- The checks shared by `BeginPutObject` and `PutObjectVersion`; returns the normalised
segment references. -/
def validatePut (req : PutObjectRequest) : Tx (List SegmentRef) := do
  failIf (req.bucketID = "" ∨ req.key = "")
    (.invalidArgument "bucket id and object key are required")
  ofOutcome (validateObjectLockState req.objectLockRetention req.objectLockLegalHold)
  let refs := normalizeSegmentRefs req.segmentRef req.segmentRefs
  ofOutcome (validateObjectManifestScale refs)
  pure refs

/-- The current head with its manifest, when there is one. -/
def currentHydratedHead (bucketID : String) (key : GoString) : Tx (Option ObjectHead) := do
  let head ← getObjectHead bucketID key
  match head with
  | none => pure none
  | some head => do
    let head ← hydrateHeadManifest head
    pure (some head)

def beginPutObject (platform : Platform) (context : CallContext) (req : PutObjectRequest)
    (path : GoString := req.key) : Tx PendingObjectVersion := do
  let refs ← validatePut req
  let _ ← requireBucket req.bucketID
  let currentHead ← currentHydratedHead req.bucketID path
  let versionID ← nextObjectVersionID context req.bucketID path
  let version := req.version refs versionID .pending (context.now 0) 0
  setObjectVersion platform version path
  pure
    { version := version
      baseHeadVersionID := (currentHead.getD {}).versionID
      baseHead := currentHead.getD {}
      baseHeadFound := currentHead.isSome }

/-- The last steps of `CommitObjectVersion` and `PutObjectVersion`: store the committed
version, make it the head, list it, record its protected references and remove the version
it replaces. -/
def installVersion (platform : Platform) (bucket : Bucket) (bucketID : String) (key : GoString)
    (currentVersionID : String) (version : ObjectVersion) (now : Time)
    (path : GoString := version.key) : Tx ObjectHead := do
  setObjectVersion platform version path
  let head ← setObjectHead (headFromVersion version now) path
  setListObject head path
  syncProtectedRefsForVersion platform version now path
  removeReplacedVersion bucket bucketID key currentVersionID version.versionID
  pure head

/-- `CommitObjectVersion`. Committing a committed version again changes nothing and returns
the hydrated head; an error of that hydration is dropped. -/
def commitObjectVersion (platform : Platform) (context : CallContext)
    (req : CommitObjectVersionRequest) (path : GoString := req.key) : Tx ObjectHead := do
  failIf (req.bucketID = "" ∨ req.key = "" ∨ req.versionID = "")
    (.invalidArgument "commit fields are required")
  let bucket ← requireBucket req.bucketID
  let current ← getObjectHead req.bucketID path
  let currentHead := current.getD {}
  failIf (currentHead.versionID ≠ req.expectedHeadVersionID) (.casConflict "")
  let found ← findVersionByID req.bucketID path req.versionID
  let (_, version) ← orFail found .notFound
  if version.state = .committed then hydrateHeadOrEmpty currentHead
  else do
    let now := context.now 0
    installVersion platform bucket req.bucketID path currentHead.versionID
      { version with state := .committed, committedAt := now } now

/-- `PutObjectVersion`'s closure; `result` is the captured result variable, whose
`ReplacedHead` fields are only written when a head exists. -/
def putObjectVersionWith (platform : Platform) (context : CallContext) (req : PutObjectRequest)
    (result : PutObjectVersionResult) (path : GoString := req.key) :
    Tx PutObjectVersionResult := do
  let refs ← validatePut req
  let bucket ← requireBucket req.bucketID
  let current ← currentHydratedHead req.bucketID path
  let result := match current with
    | some head => { result with replacedHead := head, replacedHeadFound := true }
    | none => result
  let versionID ← nextObjectVersionID context req.bucketID path
  let now := context.now 0
  let head ← installVersion platform bucket req.bucketID path (current.getD {}).versionID
    (req.version refs versionID .committed now now) now path
  pure { result with head := head }

def putObjectVersion (platform : Platform) (context : CallContext) (req : PutObjectRequest)
    (path : GoString := req.key) : Tx PutObjectVersionResult :=
  putObjectVersionWith platform context req {} path

/-! ## Reading -/

/-- `GetObjectHead`; an error of the hydration is dropped and leaves an empty head. -/
def getHead (bucketID : String) (key : GoString) : Tx ObjectHead := do
  let head ← getObjectHead bucketID key
  let head ← orFail head .notFound
  hydrateHeadOrEmpty head

def getObjectVersion (bucketID : String) (key : GoString) (versionID : String) :
    Tx ObjectVersion := do
  let found ← findVersionByID bucketID key versionID
  let (_, version) ← orFail found .notFound
  pure version

/-! ## Deleting -/

/-- The fold of `latestCommittedVersion` over the scanned versions. -/
def latestOf (skipVersionID : String) (latest version : ObjectVersion) : ObjectVersion :=
  if version.state ≠ .committed ∨ version.versionID = skipVersionID then latest
  else if latest.versionID = "" ∨ bytes latest.versionSortKey < bytes version.versionSortKey then
    version
  else latest

def latestCommittedVersion (bucketID : String) (key : GoString) (skipVersionID : String) :
    Tx (Option ObjectVersion) := do
  let versions ← scanRecords asObjectVersion (versionPrefix bucketID key)
  let latest := (versions.map Prod.snd).foldl (latestOf skipVersionID) {}
  if latest.versionID = "" then pure none
  else do
    let latest ← hydrateObjectVersionManifest latest
    pure (some latest)

/-- The delete marker a delete request leaves. -/
def DeleteObjectRequest.marker (req : DeleteObjectRequest) (versionID : String) (now : Time) :
    ObjectVersion :=
  { bucketID := req.bucketID, key := req.key, versionID := versionID, versionSortKey := versionID,
    state := .committed, createdAt := now, committedAt := now, deleteMarker := true }

def createDeleteMarker (platform : Platform) (context : CallContext) (req : DeleteObjectRequest)
    (path : GoString := req.key) : Tx DeleteResult := do
  let versionID ← nextObjectVersionID context req.bucketID path
  let now := context.now 0
  let version := req.marker versionID now
  setObjectVersion platform version path
  let _ ← setObjectHead (headFromVersion version now) path
  deleteKey (.listObject req.bucketID path)
  pure { deleted := true, deletedVersionID := versionID, deleteMarker := true,
         deletedVersion := version }

/-- The admission of a delete of `target` data: refused when object lock protects it, unless
governance mode is bypassed with a reason, which is audited. -/
def admitLockedDelete (platform : Platform) (req : DeleteObjectRequest) (protectedNow : Bool → Bool)
    (versionID target : String) (auditTime : Time) : Tx Unit :=
  onlyIf (protectedNow false) do
    failIf (protectedNow true ∨ ¬ req.bypassGovernanceRetention ∨
      ¬ validGovernanceBypassAudit req.bypassAudit) .objectLocked
    let _ ← appendAuditEvent platform
      (governanceBypassAuditEvent req.bypassAudit "governance_bypass_delete_object" req.bucketID
        req.key versionID [("target", target)]) auditTime
    pure ()

/-- The head update of `deleteObjectVersion`: the newest remaining committed version becomes
the head. -/
def promoteLatestVersion (bucketID : String) (key : GoString) (removedVersionID : String) :
    Tx Unit := do
  let head ← getObjectHead bucketID key
  match head with
  | none => pure ()
  | some head =>
    onlyIf (head.versionID = removedVersionID) do
      let promoted ← latestCommittedVersion bucketID key removedVersionID
      match promoted with
      | some promoted => do
        let promotedHead ← setObjectHead (headFromVersion promoted promoted.committedAt)
        if promoted.deleteMarker then deleteKey (.listObject bucketID key)
        else setListObject promotedHead
      | none => do
        deleteKey (.objectHead bucketID key)
        deleteKey (.listObject bucketID key)

def deleteObjectVersion (platform : Platform) (context : CallContext) (req : DeleteObjectRequest)
    (now : Time) (path : GoString := req.key) : Tx DeleteResult := do
  let found ← findVersionByID req.bucketID path req.versionID
  let (versionKey, deleted) ← orFail found .notFound
  checkDeleteKMSAdmission deleted.serverSideEncryption
  admitLockedDelete platform req (deleted.protectedByObjectLock now) deleted.versionID
    "object_version" (context.now 1)
  deleteObjectVersionRecord versionKey deleted
  deleteProtectedRefsForVersion deleted.bucketID deleted.key deleted.versionID
  promoteLatestVersion req.bucketID path req.versionID
  pure { deleted := true, deletedVersionID := deleted.versionID,
         deleteMarker := deleted.deleteMarker, deletedVersion := deleted }

/-- `DeleteObject` without a version in a bucket whose versioning is enabled. -/
def deleteWithMarker (platform : Platform) (context : CallContext) (req : DeleteObjectRequest)
    (path : GoString := req.key) : Tx DeleteResult := do
  let head ← getObjectHead req.bucketID path
  match head with
  | some head => checkDeleteKMSAdmission head.serverSideEncryption
  | none => pure ()
  createDeleteMarker platform context req path

/-- `DeleteObject` without a version in an unversioned or suspended bucket. -/
def deleteUnversioned (platform : Platform) (context : CallContext) (req : DeleteObjectRequest)
    (path : GoString := req.key) : Tx DeleteResult := do
  let head ← getObjectHead req.bucketID path
  match head with
  | none => pure { deleted := false }
  | some head => do
    checkDeleteKMSAdmission head.serverSideEncryption
    admitLockedDelete platform req (head.protectedByObjectLock (context.now 0)) head.versionID
      "object_head" (context.now 1)
    deleteKey (.objectHead req.bucketID path)
    deleteKey (.listObject req.bucketID path)
    let found ← findVersionByID req.bucketID path head.versionID
    match found with
    | some (versionKey, deleted) => do
      deleteProtectedRefsForVersion deleted.bucketID deleted.key deleted.versionID
      deleteObjectVersionRecord versionKey deleted
      pure { deleted := true, deletedVersionID := head.versionID, deletedVersion := deleted }
    | none => pure { deleted := true, deletedVersionID := head.versionID }

def deleteObject (platform : Platform) (context : CallContext) (req : DeleteObjectRequest)
    (path : GoString := req.key) : Tx DeleteResult := do
  failIf (req.bucketID = "" ∨ req.key = "")
    (.invalidArgument "bucket id and object key are required")
  let bucket ← requireBucket req.bucketID
  if req.versionID ≠ "" then deleteObjectVersion platform context req (context.now 0) path
  else if bucket.versioningState = .enabled then deleteWithMarker platform context req path
  else deleteUnversioned platform context req path

end Namros.Source
