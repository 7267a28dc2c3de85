import Namros.Source.SharedObjects
import Namros.Source.TransactionErrors
import Namros.Source.Workers

/-!
# The drain worker

`MoveObjectVersion` of `internal/drain/worker.go:52-211`, cut at its repository transactions and
its segment-store calls, and any number of such calls interleaved. The segment store answers a
copy (`copySegment`, `worker.go:364-386`) with the reference of the new segment or an error.
-/

namespace Namros.Source

open Library Transaction

/-! ## Error texts -/

/-- The text of a sentinel with its detail. -/
def DomainError.textWith (d : DomainError) (detail : String) : String :=
  if detail = "" then d.text else d.text ++ ": " ++ detail

/-- `err.Error()` of a repository error. -/
def Error.text : Error → String
  | .notFound => DomainError.notFound.text
  | .alreadyExists detail => DomainError.alreadyExists.textWith detail
  | .bucketNotEmpty => DomainError.bucketNotEmpty.text
  | .casConflict detail => DomainError.casConflict.textWith detail
  | .invalidArgument detail => DomainError.invalidArgument.textWith detail
  | .objectManifestTooLarge valueBytes =>
    DomainError.invalidArgument.text ++ ": " ++ DomainError.objectManifestTooLarge.text ++
      ": object version metadata value is " ++ toString valueBytes ++ " bytes, max " ++
      toString maxObjectManifestValueBytes
  | .objectLocked => DomainError.objectLocked.text
  | .kmsKeyUnavailable detail => DomainError.kmsKeyUnavailable.textWith detail
  | .quotaExceeded detail => DomainError.quotaExceeded.textWith detail
  | .unavailable detail => DomainError.unavailable.textWith detail
  | .workerPaused => DomainError.workerPaused.text
  | .workerCanceled => DomainError.workerCanceled.text

/-- What a call of the worker fails with: an error of the repository, or one of its own. -/
inductive DrainError
  | repository (e : Error)
  | other (text : String)
deriving DecidableEq

/-! ## Requests, drafts and attempts -/

structure MoveObjectVersionRequest where
  (resumeOfOperationID poolID sourceVolumeID targetVolumeID ownerID bucketID key versionID
    : String := "")
deriving DecidableEq

structure MoveObjectVersionResult where
  version : ObjectVersion := {}
  (previousSegmentRefs publishedSegmentRefs : List SegmentRef := [])
  operation : VolumeDrainOperationRecord := {}
deriving DecidableEq

structure OperationDraft where
  status : VolumeDrainOperationStatus := .unset
  cursor : String := ""
  (startedAt finishedAt : Time := 0)
  (scanned copied skipped protectedCount retryable : Int := 0)
  attempts : List VolumeDrainAttempt := []
deriving DecidableEq

def volumeDrainAttemptCopied : AttemptStatus := "copied"
def volumeDrainAttemptSkipped : AttemptStatus := "skipped"
def volumeDrainAttemptProtected : AttemptStatus := "protected"
def volumeDrainAttemptRetryable : AttemptStatus := "retryable"

/-- The request of `putOperation`; `now` is the worker's clock. -/
def MoveObjectVersionRequest.operation (req : MoveObjectVersionRequest) (draft : OperationDraft)
    (now : Time) : PutVolumeDrainOperationRequest :=
  { resumeOfOperationID := req.resumeOfOperationID
    poolID := req.poolID
    sourceVolumeID := req.sourceVolumeID
    targetVolumeID := req.targetVolumeID
    ownerID := req.ownerID
    status := draft.status
    cursor := draft.cursor
    startedAt := draft.startedAt
    finishedAt := if draft.finishedAt = 0 then now else draft.finishedAt
    scanned := draft.scanned
    copied := draft.copied
    skipped := draft.skipped
    protectedCount := draft.protectedCount
    retryable := draft.retryable
    attempts := draft.attempts }

/-- The part of an attempt every branch of the loop fills. -/
def MoveObjectVersionRequest.attempt (req : MoveObjectVersionRequest) (ref : SegmentRef) :
    VolumeDrainAttempt :=
  { bucketID := req.bucketID, key := req.key, versionID := req.versionID,
    sourceSegmentID := ref.segmentID, sourceRef := ref }

/-- The locals of the copy loop. -/
structure MoveProgress where
  version : ObjectVersion
  replacementRefs : List SegmentRef := []
  draft : OperationDraft
deriving DecidableEq

/-- The loop body for a segment that is not on the source volume. -/
def MoveProgress.skip (req : MoveObjectVersionRequest) (ref : SegmentRef)
    (progress : MoveProgress) : MoveProgress :=
  { progress with
    replacementRefs := progress.replacementRefs ++ [ref]
    draft := { progress.draft with
      skipped := progress.draft.skipped + 1
      attempts := progress.draft.attempts ++ [{ req.attempt ref with
        status := volumeDrainAttemptSkipped
        error := "segment ref is not on source volume" }] } }

/-- A copy that has to be tried again. -/
def MoveProgress.retry (attempt : VolumeDrainAttempt) (error : String)
    (progress : MoveProgress) : MoveProgress :=
  { progress with
    draft := { progress.draft with
      retryable := progress.draft.retryable + 1
      attempts := progress.draft.attempts ++ [{ attempt with
        status := volumeDrainAttemptRetryable, retryable := true, error := error }] } }

/-- The loop body for a segment on the source volume, once the segment store has answered. -/
def MoveProgress.copy (req : MoveObjectVersionRequest) (ref : SegmentRef)
    (answer : Except String SegmentRef) (progress : MoveProgress) : MoveProgress :=
  match answer with
  | .error text => progress.retry (req.attempt ref) text
  | .ok copiedRef =>
    let attempt := { req.attempt ref with
      targetSegmentID := copiedRef.segmentID, targetRef := copiedRef }
    if req.targetVolumeID ≠ "" ∧ segmentRefVolumeID copiedRef ≠ req.targetVolumeID then
      progress.retry attempt ("copied segment landed on volume " ++
        quoted (segmentRefVolumeID copiedRef) ++ ", want " ++ quoted req.targetVolumeID)
    else
      { progress with
        replacementRefs := progress.replacementRefs ++ [copiedRef]
        draft := { progress.draft with
          copied := progress.draft.copied + 1
          attempts := progress.draft.attempts ++ [{ attempt with
            status := volumeDrainAttemptCopied }] } }

/-- The attempt that records a refused or failed publish. -/
def MoveProgress.publishFailed (req : MoveObjectVersionRequest) (e : Error) (finishedAt : Time)
    (progress : MoveProgress) : OperationDraft :=
  let sourceRef := firstSegmentRef progress.version.allSegmentRefs
  let targetRef := firstSegmentRef progress.replacementRefs
  let attempt : VolumeDrainAttempt := { req.attempt sourceRef with
    targetSegmentID := targetRef.segmentID, targetRef := targetRef, error := e.text }
  let draft := { progress.draft with status := .retryPending, finishedAt := finishedAt }
  if e = .objectLocked then
    { draft with
      protectedCount := draft.protectedCount + 1
      attempts := draft.attempts ++ [{ attempt with
        status := volumeDrainAttemptProtected, isProtected := true }] }
  else
    { draft with
      retryable := draft.retryable + 1
      attempts := draft.attempts ++ [{ attempt with
        status := volumeDrainAttemptRetryable, retryable := true }] }

/-! ## One call -/

/-- A call of `MoveObjectVersion`, by what it does next. `published` is the outcome of a
`PublishObjectVersionRefs` that succeeded. -/
inductive MoveCall
  | start
  /-- The copy loop, with the references it has not come to yet. -/
  | copying (remaining : List SegmentRef) (progress : MoveProgress)
  /-- `putOperation`, and what the call returns when it succeeds. -/
  | recording (published : Option PublishRefsResult) (draft : OperationDraft)
      (result : MoveObjectVersionResult) (err : Option DrainError)
  | returned (published : Option PublishRefsResult) (draft : OperationDraft)
      (result : MoveObjectVersionResult) (err : Option DrainError)
deriving DecidableEq

/-- The call returned before it had anything to record. -/
def MoveCall.refused (e : Error) : MoveCall := .returned none {} {} (some (.repository e))

/-- Reading the version; `startedAt` and `finishedAt` are the worker's clock. -/
def startMove (context : CallContext) (req : MoveObjectVersionRequest) (s : Store) :
    Store × MoveCall :=
  if req.bucketID = "" ∨ req.key = "" ∨ req.versionID = "" then
    (s, .refused (.invalidArgument "bucket id, key, and version id are required"))
  else if req.sourceVolumeID = "" then
    (s, .refused (.invalidArgument "source volume id is required"))
  else
    match (getObjectVersion req.bucketID req.key req.versionID).run s with
    | .error e => (s, .refused e)
    | .ok (version, t) =>
      let refs := version.allSegmentRefs
      let draft : OperationDraft := { startedAt := context.now 0, cursor := req.versionID }
      if refs = [] then
        (t, .recording none
          { draft with finishedAt := context.now 1, status := .succeeded }
          { version := version } none)
      else (t, .copying refs { version := version, draft := { draft with scanned := refs.length } })

/-- After the copy loop: give up, find nothing to do, or publish. -/
def finishMove (platform : Platform) (context : CallContext) (req : MoveObjectVersionRequest)
    (progress : MoveProgress) (s : Store) : Store × MoveCall :=
  let draft := progress.draft
  if draft.retryable > 0 then
    (s, .recording none { draft with status := .retryPending, finishedAt := context.now 1 } {}
      (some (.other "volume drain copy has retryable failures")))
  else if draft.copied = 0 then
    (s, .recording none { draft with status := .succeeded, finishedAt := context.now 1 }
      { version := progress.version, publishedSegmentRefs := progress.replacementRefs } none)
  else
    match (publishObjectVersionRefs platform context
      { bucketID := req.bucketID, key := req.key, versionID := req.versionID,
        expectedSourceVolumeID := req.sourceVolumeID,
        segmentRefs := progress.replacementRefs }).run s with
    | .error e =>
      (s, .recording none (progress.publishFailed req e (context.now 1)) {} (some (.repository e)))
    | .ok (published, t) =>
      (t, .recording (some published)
        { draft with status := .succeeded, finishedAt := context.now 1 }
        { version := published.version
          previousSegmentRefs := published.previousSegmentRefs
          publishedSegmentRefs := progress.replacementRefs } none)

/-- `putOperation`, the last step. -/
def recordMove (context : CallContext) (req : MoveObjectVersionRequest)
    (published : Option PublishRefsResult) (draft : OperationDraft)
    (result : MoveObjectVersionResult) (err : Option DrainError) (s : Store) :
    Store × MoveCall :=
  match (putVolumeDrainOperation context (req.operation draft (context.now 1))).run s with
  | .error e => (s, .returned published draft result (some (.repository e)))
  | .ok (record, t) => (t, .returned published draft { result with operation := record } err)

/-- The next step of a call that does not wait for the segment store. -/
def MoveCall.serve (platform : Platform) (context : CallContext) (req : MoveObjectVersionRequest)
    (s : Store) : MoveCall → Store × MoveCall
  | .start => startMove context req s
  | .copying [] progress => finishMove platform context req progress s
  | .copying (ref :: rest) progress =>
    if segmentRefVolumeID ref ≠ req.sourceVolumeID then
      (s, .copying rest (progress.skip req ref))
    else (s, .copying (ref :: rest) progress)
  | .recording published draft result err =>
    recordMove context req published draft result err s
  | .returned published draft result err => (s, .returned published draft result err)

/-- The segment store answers a copy. -/
def MoveCall.answer (req : MoveObjectVersionRequest) (copied : Except String SegmentRef) :
    MoveCall → MoveCall
  | .copying (ref :: rest) progress =>
    if segmentRefVolumeID ref ≠ req.sourceVolumeID then .copying (ref :: rest) progress
    else .copying rest (progress.copy req ref copied)
  | call => call

/-! ## Interleavings -/

/-- The store and the calls in flight, each with its request. -/
structure DrainSystem where
  store : Store
  calls : List (MoveObjectVersionRequest × MoveCall)

/-- What happens next, to the call at `index`. -/
inductive DrainEvent
  | serve (index : Nat) (context : CallContext)
  /-- Its copy returns. -/
  | copied (index : Nat) (answer : Except String SegmentRef)

/-- One event. -/
def DrainSystem.step (platform : Platform) (sys : DrainSystem) : DrainEvent → DrainSystem
  | .serve index context =>
    match sys.calls[index]? with
    | none => sys
    | some (req, call) =>
      let (store, next) := call.serve platform context req sys.store
      { store := store, calls := sys.calls.set index (req, next) }
  | .copied index answer =>
    match sys.calls[index]? with
    | none => sys
    | some (req, call) =>
      { sys with calls := sys.calls.set index (req, call.answer req answer) }

/-- A run. -/
def DrainSystem.run (platform : Platform) (sys : DrainSystem) (events : List DrainEvent) :
    DrainSystem :=
  events.foldl (·.step platform) sys

/-- Calls that have not begun. -/
def DrainSystem.begin (s : Store) (reqs : List MoveObjectVersionRequest) : DrainSystem :=
  { store := s, calls := reqs.map fun req => (req, .start) }

end Namros.Source
