import Namros.Source.Multipart

/-!
# Multipart requests of the gateway

The multipart handlers of `internal/gateway/s3_handlers.go` and the abort worker of
`internal/lifecycle/worker.go`, cut at their repository transactions and segment-store calls:
`completeMultipartUpload` (544-665) with `resumeMultipartCompletion` and
`committedMultipartCompletionHead` (704-769), `abortMultipartUpload` (667-693), `uploadPart`
(321-394), and the abort actions of `AbortWorker.RunOnce` (122-181). Any number of such
requests on one upload run interleaved.

A request may stop wherever it waits: this covers crashes, cancellation, and the checks of the
handlers that only read (body limits, quota admission, segment validation, failed
`PutSegment`). Orphan marks are not modelled: they delete nothing.
-/

namespace Namros.Source

open Library Transaction

/-! ## Pure helpers of the handlers -/

structure CompletePart where
  partNumber : Int := 0
  etag : String := ""
deriving DecidableEq

def normalizeETag (value : String) : List Char :=
  let text := trimText isSpace value.toList
  if text = [] then []
  else if text.head? = some '"' ∧ text.getLast? = some '"' then text
  else '"' :: text ++ ['"']

/-- `parseCompleteMultipartUpload` after the XML decoder: at least one part, numbers in range and
increasing. -/
def completeRequestValid (parts : List CompletePart) : Bool :=
  parts ≠ [] && parts.all (fun part => 1 ≤ part.partNumber && part.partNumber ≤ maxMultipartParts) &&
    decide ((parts.map CompletePart.partNumber).IsChain (· < ·))

def completePartNumbers (parts : List CompletePart) : List Int :=
  parts.map CompletePart.partNumber

/-- `selectCompleteParts`; of several available parts with one number the last counts. -/
def selectCompleteParts (available : List MultipartPart) :
    List CompletePart → Option (List MultipartPart)
  | [] => some []
  | req :: rest => do
    let part ← available.reverse.find? fun part => (part.partNumber : Int) = req.partNumber
    if req.etag ≠ "" ∧ normalizeETag req.etag ≠ normalizeETag part.etag then none
    else
      let selected ← selectCompleteParts available rest
      some (part :: selected)

/-- One digit of `hex.DecodeString`. -/
def fromHexDigit (c : Char) : Option UInt8 :=
  let n := c.toNat
  if 48 ≤ n ∧ n ≤ 57 then some (UInt8.ofNat (n - 48))
  else if 97 ≤ n ∧ n ≤ 102 then some (UInt8.ofNat (n - 87))
  else if 65 ≤ n ∧ n ≤ 70 then some (UInt8.ofNat (n - 55))
  else none

/-- `hex.DecodeString`. -/
def decodeHex : List Char → Option Bytes
  | [] => some []
  | [_] => none
  | high :: low :: rest => do
    let high ← fromHexDigit high
    let low ← fromHexDigit low
    let rest ← decodeHex rest
    some ((high * 16 + low) :: rest)

/-- The digests `multipartETag` concatenates. -/
def partDigests : List MultipartPart → Option Bytes
  | [] => some []
  | part :: rest => do
    let raw ← decodeHex (trimText (· == '"') (normalizeETag part.etag))
    let rest ← partDigests rest
    some (raw ++ rest)

def multipartETag (platform : Platform) (parts : List MultipartPart) : Option String := do
  let digests ← partDigests parts
  some ("\"" ++ platform.md5Hex digests ++ "-" ++ toString parts.length ++ "\"")

/-- `int64(x)` of a `uint64`. -/
def asInt64 (x : UInt64) : Int := (x.toNat : Int).bmod (2 ^ 64)

/-- The total of `partSegmentRefs`, as the `int64` the requests carry. -/
def partsTotalSize (parts : List MultipartPart) : Int :=
  (parts.map MultipartPart.sizeBytes).sum.bmod (2 ^ 64)

def segmentLogicalSize (ref : SegmentRef) : UInt64 :=
  if ref.encryption.algorithm ≠ "" ∧ ref.encryption.plaintextSizeBytes > 0 then
    ref.encryption.plaintextSizeBytes
  else ref.sizeBytes

/-- The `BeginPutObject` request of a completion. -/
def completedObject (target : MultipartUploadRequest) (upload : MultipartUpload)
    (selected : List MultipartPart) (etag : String) : PutObjectRequest :=
  { bucketID := target.bucketID, key := target.key, sizeBytes := partsTotalSize selected,
    etag := etag, contentType := upload.contentType, storageClass := upload.storageClass,
    serverSideEncryption := upload.serverSideEncryption,
    segmentRefs := selected.map MultipartPart.segmentRef, userMetadata := upload.userMetadata,
    tags := upload.tags, objectLockRetention := upload.objectLockRetention,
    objectLockLegalHold := upload.objectLockLegalHold }

/-- The upload a completion record belongs to. -/
def MultipartCompletionRecord.upload (completion : MultipartCompletionRecord) :
    MultipartUploadRequest :=
  { bucketID := completion.bucketID, key := completion.key, uploadID := completion.uploadID }

/-! ## Requests -/

/-- A request, by what it does next. -/
inductive Request
  /-- `completeMultipartUpload`: read the upload. -/
  | complete (requested : List CompletePart)
  /-- Look for an earlier completion. -/
  | findCompletion (requested : List CompletePart) (upload : MultipartUpload)
  /-- Read the requested parts. -/
  | readParts (requested : List CompletePart) (upload : MultipartUpload)
  /-- Begin the object version of the selected parts. -/
  | beginObject (upload : MultipartUpload) (selected : List MultipartPart) (etag : String)
  /-- `abortMultipartUploadAndMarkOrphans`. -/
  | abortTooLarge
  /-- Record the completion. -/
  | prepare (selected : List MultipartPart) (etag : String) (pending : PendingObjectVersion)
  /-- `resumeMultipartCompletion`: read the version. -/
  | resume (completion : MultipartCompletionRecord)
  | commit (completion : MultipartCompletionRecord)
  /-- After a lost commit: read the head. -/
  | confirmHead (completion : MultipartCompletionRecord)
  | markPublished (completion : MultipartCompletionRecord)
  | finish (completion : MultipartCompletionRecord)
  | markCompleted (completion : MultipartCompletionRecord)
  | cleanup (upload : MultipartUploadRequest)
  /-- `abortMultipartUpload`, or an abort action of the lifecycle worker. -/
  | abort (byWorker : Bool)
  | deleteParts (byWorker : Bool) (refs : List SegmentRef)
  /-- `uploadPart`: read the upload. -/
  | uploadPart (partNumber : Int)
  | putSegment (partNumber : Int)
  | putPart (partNumber : Int) (segmentRef : SegmentRef) (etag : String)
  | deletePrevious (previous : SegmentRef)
  | finished
deriving DecidableEq

/-- The requests a client or the worker can start. -/
def Request.Starting : Request → Prop
  | .complete _ | .abort _ | .uploadPart _ => True
  | _ => False

/-- One repository transaction of a request; a failed one leaves the store as it was. -/
def attempt {α : Type} (body : Tx α) (s : Store) (succeeded : α → Request)
    (failed : Error → Request) : Store × Request :=
  match body.run s with
  | .ok (a, t) => (t, succeeded a)
  | .error e => (s, failed e)

/-- The next request state after the parts were read: they are selected and their ETag is
computed. -/
def afterParts (platform : Platform) (requested : List CompletePart) (upload : MultipartUpload)
    (parts : List MultipartPart) : Request :=
  match selectCompleteParts parts requested with
  | none => .finished
  | some selected =>
    match multipartETag platform selected with
    | none => .finished
    | some etag => .beginObject upload selected etag

/-- The repository transaction a request waits for. -/
def Request.serve (platform : Platform) (context : CallContext) (target : MultipartUploadRequest)
    (s : Store) : Request → Store × Request
  | .complete requested =>
    attempt (getUpload target) s
      (fun upload => match upload.state with
        | .completed => .cleanup target
        | .active => .findCompletion requested upload
        | _ => .finished)
      fun _ => .finished
  | .findCompletion requested upload =>
    attempt (getMultipartCompletion target) s .resume fun e =>
      if e = .notFound ∧ completeRequestValid requested then .readParts requested upload
      else .finished
  | .readParts requested upload =>
    attempt (getMultipartParts target (completePartNumbers requested)) s
      (afterParts platform requested upload) fun _ => .finished
  | .beginObject upload selected etag =>
    attempt (beginPutObject platform context (completedObject target upload selected etag)) s
      (.prepare selected etag)
      fun e => match e with
        | .objectManifestTooLarge _ => .abortTooLarge
        | _ => .finished
  | .abortTooLarge =>
    attempt (abortMultipartUpload context target) s (fun _ => .cleanup target) fun _ => .finished
  | .prepare selected etag pending =>
    attempt (prepareMultipartCompletion context
      { upload := target, objectVersionID := pending.version.versionID,
        expectedHeadVersionID := pending.baseHeadVersionID, etag := etag,
        sizeBytes := partsTotalSize selected, partCount := selected.length }) s
      .resume fun _ => .finished
  | .resume completion =>
    attempt (getObjectVersion completion.bucketID completion.key completion.objectVersionID) s
      (fun version => if version.state = .committed then .markPublished completion
        else .commit completion)
      fun e => if e = .notFound then .commit completion else .finished
  | .commit completion =>
    attempt (commitObjectVersion platform context
      { bucketID := completion.bucketID, key := completion.key,
        versionID := completion.objectVersionID,
        expectedHeadVersionID := completion.expectedHeadVersionID }) s
      (fun _ => .markPublished completion)
      fun e => match e with
        | .casConflict _ => .confirmHead completion
        | _ => .finished
  | .confirmHead completion =>
    attempt (getHead completion.bucketID completion.key) s
      (fun head => if head.versionID = completion.objectVersionID then .markPublished completion
        else .finished)
      fun _ => .finished
  | .markPublished completion =>
    attempt (markMultipartCompletionState context completion.upload .published) s
      (fun _ => .finish completion) fun _ => .finish completion
  | .finish completion =>
    attempt (completeMultipartUpload context
      { upload := completion.upload, objectVersionID := completion.objectVersionID,
        etag := completion.etag, sizeBytes := completion.sizeBytes,
        partCount := completion.partCount }) s
      (fun _ => .markCompleted completion) fun _ => .finished
  | .markCompleted completion =>
    attempt (markMultipartCompletionState context completion.upload .completed) s
      (fun _ => .cleanup completion.upload) fun _ => .cleanup completion.upload
  | .cleanup upload =>
    attempt (cleanupMultipartUploadParts context upload defaultMultipartCleanupLimit) s
      (fun _ => .finished) fun _ => .finished
  | .abort byWorker =>
    attempt (abortMultipartUpload context target) s
      (fun parts => .deleteParts byWorker (parts.map MultipartPart.segmentRef))
      fun _ => .finished
  | .deleteParts byWorker [] => (s, if byWorker then .finished else .cleanup target)
  | .uploadPart partNumber =>
    attempt (getUpload target) s
      (fun upload => if upload.state = .active then .putSegment partNumber else .finished)
      fun _ => .finished
  | .putPart partNumber segmentRef etag =>
    attempt (putMultipartPart context
      { upload := target, partNumber := partNumber,
        sizeBytes := asInt64 (segmentLogicalSize segmentRef), etag := etag,
        segmentRef := segmentRef }) s
      (fun stored => match stored.2 with
        | some previous => .deletePrevious previous.segmentRef
        | none => .finished)
      fun _ => .finished
  | waiting => (s, waiting)

/-! ## Interleavings -/

/-- The store, the requests in flight, and every segment passed to `DeleteSegment` so far. -/
structure MultipartSystem where
  store : Store
  requests : List Request
  deletions : List SegmentRef

/-- What happens next, to the request at `index`. -/
inductive MultipartEvent
  /-- It runs its repository transaction. -/
  | serve (index : Nat) (context : CallContext)
  /-- Its `PutSegment` returns a segment. -/
  | putSegment (index : Nat) (segmentRef : SegmentRef) (etag : String)
  /-- It calls `DeleteSegment`. -/
  | deleteSegment (index : Nat)
  /-- It stops. -/
  | stop (index : Nat)

/-- One event. -/
def MultipartSystem.step (platform : Platform) (target : MultipartUploadRequest)
    (sys : MultipartSystem) : MultipartEvent → MultipartSystem
  | .serve index context =>
    match sys.requests[index]? with
    | none => sys
    | some request =>
      let (store, next) := request.serve platform context target sys.store
      { sys with store := store, requests := sys.requests.set index next }
  | .putSegment index segmentRef etag =>
    match sys.requests[index]? with
    | some (.putSegment partNumber) =>
      { sys with requests := sys.requests.set index (.putPart partNumber segmentRef etag) }
    | _ => sys
  | .deleteSegment index =>
    match sys.requests[index]? with
    | some (.deleteParts byWorker (ref :: rest)) =>
      { sys with
        requests := sys.requests.set index (.deleteParts byWorker rest)
        deletions := ref :: sys.deletions }
    | some (.deletePrevious previous) =>
      { sys with
        requests := sys.requests.set index .finished
        deletions := previous :: sys.deletions }
    | _ => sys
  | .stop index => { sys with requests := sys.requests.set index .finished }

/-- A run. -/
def MultipartSystem.run (platform : Platform) (target : MultipartUploadRequest)
    (sys : MultipartSystem) (events : List MultipartEvent) : MultipartSystem :=
  events.foldl (·.step platform target) sys

end Namros.Source
