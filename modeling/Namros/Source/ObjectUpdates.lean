import Namros.Source.Objects

/-!
# Updates of stored versions

Tags, retention and legal hold (`repository.go:1781-2015`), which rewrite a version and, when
it is the current one, its head and list entry.
-/

namespace Namros.Source

open Library Transaction

/-- Rewrite a head and its list entry. -/
def replaceHead (head : ObjectHead) : Tx Unit := do
  let head ← setObjectHead head
  setListObject head

/-- The head update after a version was rewritten: only the current version's head changes. -/
def updateHeadOf (bucketID : String) (key : GoString) (versionID : String)
    (update : ObjectHead → ObjectHead) : Tx Unit := do
  let head ← getObjectHead bucketID key
  match head with
  | none => pure ()
  | some head => onlyIf (head.versionID = versionID) (replaceHead (update head))

/-! ## Tags -/

/-- `PutObjectTags` with a version. -/
def putVersionTags (platform : Platform) (req : ObjectTagsRequest) (path : GoString := req.key) :
    Tx Unit := do
  let found ← findVersionByID req.bucketID path req.versionID
  let (_, version) ← orFail found .notFound
  failIf (version.state ≠ .committed) .notFound
  setObjectVersion platform { version with tags := req.tags }
  updateHeadOf req.bucketID path req.versionID fun head => { head with tags := req.tags }

/-- `PutObjectTags` without a version. -/
def putHeadTags (platform : Platform) (req : ObjectTagsRequest) (path : GoString := req.key) :
    Tx Unit := do
  let head ← getObjectHead req.bucketID path
  let head ← orFail head .notFound
  replaceHead { head with tags := req.tags }
  onlyIf (head.versionID ≠ "") do
    let found ← findVersionByID req.bucketID path head.versionID
    match found with
    | none => pure ()
    | some (_, version) => setObjectVersion platform { version with tags := req.tags }

def putObjectTags (platform : Platform) (req : ObjectTagsRequest) (path : GoString := req.key) :
    Tx Unit := do
  failIf (req.bucketID = "" ∨ req.key = "")
    (.invalidArgument "bucket id and object key are required")
  if req.versionID ≠ "" then putVersionTags platform req path else putHeadTags platform req path

def deleteObjectTags (platform : Platform) (req : ObjectTagsRequest)
    (path : GoString := req.key) : Tx Unit :=
  putObjectTags platform { req with tags := [] } path

/-! ## Retention and legal hold -/

/-- The version id `objectLockTarget` works on: the current version's when none is named. -/
def objectLockTargetID (bucketID : String) (key : GoString) (versionID : String) : Tx String :=
  if versionID = "" then do
    let head ← getObjectHead bucketID key
    let head ← orFail head .notFound
    failIf head.deleteMarker .notFound
    pure head.versionID
  else pure versionID

def objectLockTarget (bucketID : String) (key : GoString) (versionID : String) :
    Tx ObjectVersion := do
  let versionID ← objectLockTargetID bucketID key versionID
  let found ← findVersionByID bucketID key versionID
  let (_, version) ← orFail found .notFound
  failIf (version.state ≠ .committed ∨ version.deleteMarker) .notFound
  pure version

def updateHeadObjectLock (version : ObjectVersion) : Tx Unit := do
  let head ← getObjectHead version.bucketID version.key
  match head with
  | none => pure ()
  | some head =>
    onlyIf (head.versionID = version.versionID) do
      let head ← setObjectHead { head with
        objectLockRetention := version.objectLockRetention
        objectLockLegalHold := version.objectLockLegalHold }
      if head.deleteMarker then deleteKey (.listObject version.bucketID version.key)
      else setListObject head

def formatAuditTime (platform : Platform) (value : Time) : String :=
  if value.isZero then "" else platform.rfc3339Nano value

/-- The admission of a retention update: refused when the current retention blocks it, unless
governance mode is bypassed with a reason, which is audited. -/
def admitRetentionUpdate (platform : Platform) (req : ObjectRetentionRequest)
    (version : ObjectVersion) (now auditTime : Time) : Tx Unit :=
  let current := version.objectLockRetention
  onlyIf (retentionUpdateBlocked current req.retention now false) do
    failIf (retentionUpdateBlocked current req.retention now true ∨
      ¬ req.bypassGovernanceRetention ∨ ¬ validGovernanceBypassAudit req.bypassAudit) .objectLocked
    let _ ← appendAuditEvent platform
      (governanceBypassAuditEvent req.bypassAudit "governance_bypass_put_object_retention"
        req.bucketID req.key version.versionID
        [("current_mode", current.mode.text),
         ("current_retain_until", platform.rfc3339Nano current.retainUntilDate),
         ("next_mode", req.retention.mode.text),
         ("next_retain_until", platform.rfc3339Nano req.retention.retainUntilDate)]) auditTime
    pure ()

def putObjectRetention (platform : Platform) (context : CallContext)
    (req : ObjectRetentionRequest) (path : GoString := req.key) : Tx Unit := do
  failIf (req.bucketID = "" ∨ req.key = "")
    (.invalidArgument "bucket id and object key are required")
  ofOutcome (validateObjectLockState req.retention .unset)
  let now := context.now 0
  failIf (req.retention.retainUntilDate ≤ now)
    (.invalidArgument "object lock retain-until date must be in the future")
  let version ← objectLockTarget req.bucketID path req.versionID
  admitRetentionUpdate platform req version now (context.now 1)
  let previous := version.objectLockRetention
  let version := { version with objectLockRetention := req.retention }
  setObjectVersion platform version
  updateHeadObjectLock version
  syncProtectedRefsForVersion platform version now
  let _ ← appendAuditEvent platform
    (transitionAuditEvent req.audit "put_object_retention" req.bucketID req.key version.versionID
      [("previous_mode", previous.mode.text),
       ("previous_retain_until", formatAuditTime platform previous.retainUntilDate),
       ("next_mode", req.retention.mode.text),
       ("next_retain_until", formatAuditTime platform req.retention.retainUntilDate)])
    (context.now 2)
  pure ()

def putObjectLegalHold (platform : Platform) (context : CallContext)
    (req : ObjectLegalHoldRequest) (path : GoString := req.key) : Tx Unit := do
  failIf (req.bucketID = "" ∨ req.key = "")
    (.invalidArgument "bucket id and object key are required")
  failIf (req.legalHold ≠ .on ∧ req.legalHold ≠ .off)
    (.invalidArgument "object lock legal hold status is invalid")
  let version ← objectLockTarget req.bucketID path req.versionID
  let previous := version.objectLockLegalHold
  let version := { version with objectLockLegalHold := req.legalHold }
  setObjectVersion platform version
  updateHeadObjectLock version
  syncProtectedRefsForVersion platform version (context.now 0)
  let _ ← appendAuditEvent platform
    (transitionAuditEvent req.audit "put_object_legal_hold" req.bucketID req.key version.versionID
      [("previous_legal_hold", previous.text), ("next_legal_hold", req.legalHold.text)])
    (context.now 1)
  pure ()

end Namros.Source
