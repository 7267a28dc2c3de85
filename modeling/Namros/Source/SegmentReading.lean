import Mathlib.Data.UInt
import Namros.Source.Drain
import Namros.Source.MultipartGateway

/-!
# Contents of segments

The segment store as the gateway and the drain worker use it (`internal/storage/storage.go`),
the gateway's readers (`internal/gateway/s3_handlers.go:3278-3423`), and `MoveObjectVersion` of
the drain worker with its copies made by the store (`internal/drain/worker.go:52-211`,
`364-386`). The store itself and the decryption of a segment are parameters.
-/

namespace Namros.Source

/-! ## The segment store -/

/-- The sentinels of `storage.go`, and any other error by its text. -/
inductive StorageError
  | notFound
  /-- `ErrNotFound` with a detail. -/
  | missing (detail : String)
  | invalidArgument (detail : String)
  | invalidRange
  | unavailable (detail : String)
  /-- `ErrProtected`. -/
  | isProtected (detail : String)
  | other (text : String)
deriving DecidableEq

/-- `err.Error()`. -/
def StorageError.text : StorageError → String
  | .notFound => "segment not found"
  | .missing detail => "segment not found: " ++ detail
  | .invalidArgument detail => "invalid argument: " ++ detail
  | .invalidRange => "invalid range"
  | .unavailable detail => "storage unavailable: " ++ detail
  | .isProtected detail => "segment protected: " ++ detail
  | .other text => text

/-- `errors.Join` of two errors that may be absent. -/
def joinErrors : Option StorageError → Option StorageError → Option StorageError
  | none, e => e
  | e, none => e
  | some e, some e' => some (.other (e.text ++ "\n" ++ e'.text))

/-- An `io.ReadCloser`: what it reads, and what `Close` returns. -/
structure SegmentReader where
  content : List UInt8
  closeError : Option StorageError := none
deriving DecidableEq

structure PutSegmentRequest where
  reader : List UInt8
  sizeBytes : UInt64
  storageClass : StorageClassSnapshot

/-- The part of `storage.SegmentStore` that reads and writes, on a store with state `σ`. -/
structure SegmentStore (σ : Type) where
  getSegment (ref : SegmentRef) (off length : UInt64) (g : σ) : Except StorageError SegmentReader
  putSegment (req : PutSegmentRequest) (g : σ) : Except StorageError SegmentRef × σ

/-- `DecryptSegment` of an encryption provider. -/
abbrev DecryptSegment := EncryptionEnvelope → List UInt8 → Except StorageError SegmentReader

/-! ## The gateway's readers -/

section

variable {σ : Type} (store : SegmentStore σ) (encryption : Option DecryptSegment)

def maxInt64Uint : UInt64 := 2 ^ 63 - 1

def plaintextRangeReader (plaintext : SegmentReader) (offset length : UInt64) :
    Except StorageError SegmentReader :=
  if offset > maxInt64Uint ∨ length > maxInt64Uint then .error .invalidRange
  -- io.CopyN comes to the end of the plaintext
  else if offset > 0 ∧ plaintext.content.length < offset.toNat then .error .invalidRange
  else .ok { plaintext with
    content := (plaintext.content.drop offset.toNat).take length.toNat }

def openSegmentReader (ref : SegmentRef) (offset length : UInt64) (g : σ) :
    Except StorageError SegmentReader :=
  if ref.encryption.algorithm = "" then store.getSegment ref offset length g
  else
    match encryption with
    | none => .error (.unavailable "encrypted segment requires encryption provider")
    | some decryptSegment =>
      let logicalSize := segmentLogicalSize ref
      if offset > logicalSize ∨ offset + length < offset ∨ offset + length > logicalSize then
        .error .invalidRange
      else do
        let ciphertext ← store.getSegment ref 0 ref.sizeBytes g
        let plaintext ← decryptSegment ref.encryption ciphertext.content
        plaintextRangeReader { plaintext with
          closeError := joinErrors plaintext.closeError ciphertext.closeError } offset length

/-- The loop of `openObjectReaders`, with the length it has left over. -/
def openReaders (g : σ) : List SegmentRef → UInt64 → UInt64 →
    Except StorageError (List SegmentReader × UInt64)
  | [], _, remainingLength => .ok ([], remainingLength)
  | ref :: refs, remainingOffset, remainingLength =>
    if remainingLength = 0 then .ok ([], 0)
    else
      let logicalSize := segmentLogicalSize ref
      if remainingOffset ≥ logicalSize then
        openReaders g refs (remainingOffset - logicalSize) remainingLength
      else do
        let available := logicalSize - remainingOffset
        let readLength := if available > remainingLength then remainingLength else available
        let reader ← openSegmentReader store encryption ref remainingOffset readLength g
        let (readers, left) ← openReaders g refs 0 (remainingLength - readLength)
        pure (reader :: readers, left)

def objectSegmentRefs (head : ObjectHead) : List SegmentRef :=
  normalizeSegmentRefs head.segmentRef head.segmentRefs

def openObjectReaders (head : ObjectHead) (offset length : UInt64) (g : σ) :
    Except StorageError (List SegmentReader) :=
  if length = 0 then .ok []
  else do
    let (readers, remainingLength) ←
      openReaders store encryption g (objectSegmentRefs head) offset length
    if remainingLength ≠ 0 then .error .invalidRange else pure readers

end

/-- The part of a segment that a range takes is inside it. -/
theorem readLength_inside {offset length size : UInt64} (begins : ¬ offset ≥ size) :
    offset.toNat +
        (if size - offset > length then length else size - offset).toNat ≤ size.toNat := by
  have below : offset.toNat ≤ size.toNat :=
    Nat.le_of_lt (UInt64.lt_iff_toNat_lt.mp (UInt64.not_le.mp begins))
  have rest : (size - offset).toNat = size.toNat - offset.toNat :=
    UInt64.toNat_sub_of_le _ _ (UInt64.le_iff_toNat_le.mpr below)
  split
  · next shorter =>
    have := UInt64.lt_iff_toNat_lt.mp shorter
    omega
  · omega

def objectHeadFromVersion (version : ObjectVersion) : ObjectHead :=
  { bucketID := version.bucketID
    key := version.key
    versionID := version.versionID
    sizeBytes := version.sizeBytes
    etag := version.etag
    contentType := version.contentType
    storageClass := version.storageClass
    serverSideEncryption := version.serverSideEncryption
    segmentRef := version.segmentRef
    segmentRefs := version.segmentRefs
    userMetadata := version.userMetadata
    tags := version.tags
    objectLockRetention := version.objectLockRetention
    objectLockLegalHold := version.objectLockLegalHold
    lastModified := if version.committedAt = 0 then version.createdAt else version.committedAt
    deleteMarker := version.deleteMarker }

/-! ## Moving a version -/

section

variable {σ : Type} (store : SegmentStore σ)

def copySegment (version : ObjectVersion) (ref : SegmentRef) (g : σ) :
    Except StorageError SegmentRef × σ :=
  match store.getSegment ref 0 ref.sizeBytes g with
  | .error e => (.error e, g)
  | .ok reader =>
    let storageClass :=
      if ref.storageClass.storageClassID = "" then version.storageClass else ref.storageClass
    match store.putSegment
      { reader := reader.content, sizeBytes := ref.sizeBytes, storageClass := storageClass } g with
    | (.error e, g') => (.error e, g')
    | (.ok copied, g') =>
      match reader.closeError with
      | some e => (.error e, g')
      | none => (.ok copied, g')

/-- The copy loop of `MoveObjectVersion`. -/
def copyLoop (req : MoveObjectVersionRequest) :
    List SegmentRef → MoveProgress → σ → MoveProgress × σ
  | [], progress, g => (progress, g)
  | ref :: refs, progress, g =>
    if segmentRefVolumeID ref ≠ req.sourceVolumeID then
      copyLoop req refs (progress.skip req ref) g
    else
      let (answer, g') := copySegment store progress.version ref g
      copyLoop req refs (progress.copy req ref (answer.mapError StorageError.text)) g'

/-- A call of `MoveObjectVersion` that has returned, with the stores it left. -/
structure MoveOutcome (σ : Type) where
  store : Store
  segments : σ
  call : MoveCall

/-- The last step, for a call that has something to record. -/
def recordedMove (context : CallContext) (req : MoveObjectVersionRequest) :
    Store × MoveCall → Store × MoveCall
  | (s, .recording published draft result err) =>
    recordMove context req published draft result err s
  | (s, call) => (s, call)

/-- `MoveObjectVersion`; `contexts` are those of its repository calls. -/
def moveObjectVersion (platform : Platform) (contexts : Nat → CallContext)
    (req : MoveObjectVersionRequest) (s : Store) (g : σ) : MoveOutcome σ :=
  match startMove (contexts 0) req s with
  | (s₁, .copying refs progress) =>
    let (copied, g') := copyLoop store req refs progress g
    let (t, call) :=
      recordedMove (contexts 2) req (finishMove platform (contexts 1) req copied s₁)
    { store := t, segments := g', call := call }
  | (s₁, call) =>
    let (t, call) := recordedMove (contexts 2) req (s₁, call)
    { store := t, segments := g, call := call }

end

end Namros.Source
