import Namros.Source.SegmentAddress

/-!
# The volume-offset SBS store

`internal/storage/sbs/store.go`: segments are extents of one volume, given out in order. A put
allocates its extent and saves the adapter state under the lock, then streams the payload in
block-aligned writes. What the context, the session fence, the state file and the volume answer
is given with each step.
-/

namespace Namros.Source

/-! ## Configuration and state -/

/-- `storage.GCCandidate`. -/
structure StoredCandidate where
  ref : SegmentRef
  reason : DeleteReason
  createdAt : Time
deriving DecidableEq

structure AdapterState where
  (nextOffset sequence : UInt64 := 0)
  deleted : List String := []
  gcQueue : List (String × StoredCandidate) := []
deriving DecidableEq

structure OffsetConfig where
  volumeID : String
  blockSize : UInt64
  volumeSize : UInt64

/-- The state in memory and the one in the state file. -/
structure OffsetStore where
  (state disk : AdapterState := {})
deriving DecidableEq

/-- `saveState`; a failed save leaves the file as it was. -/
def OffsetStore.saveState (failure : Option StorageError) (s : OffsetStore) :
    Except StorageError Unit × OffsetStore :=
  match failure with
  | some e => (.error e, s)
  | none => (.ok (), { s with disk := s.state })

/-- The store opened again: `loadState`. -/
def OffsetStore.reload (s : OffsetStore) : OffsetStore := { s with state := s.disk }

/-! ## Sizes -/

def alignUp (value alignment : UInt64) : UInt64 :=
  if alignment = 0 ∨ value = 0 then value
  else
    let remainder := value % alignment
    if remainder = 0 then value else value + alignment - remainder

def legacySegmentReadChunkSize : UInt64 := 64 * 1024

def legacySegmentWritePayloadChunkSize (blockSize : UInt64) : UInt64 :=
  if blockSize = 0 then legacySegmentReadChunkSize
  else if blockSize ≥ legacySegmentReadChunkSize then blockSize
  else
    let chunkSize := legacySegmentReadChunkSize - legacySegmentReadChunkSize % blockSize
    if chunkSize = 0 then blockSize else chunkSize

/-! ## Extents and references -/

/-- `segmentAddress`, without the volume. -/
structure OffsetExtent where
  offset : UInt64
  paddedLength : UInt64
  sequence : UInt64
deriving DecidableEq

def offsetFormat : AddressFormat where
  backend := "sbs-local"
  secondBits := 64
  invalidID := "invalid sbs segment id"
  invalidFirst := "invalid sbs segment offset"
  invalidSecond := "invalid sbs segment length"
  invalidThird := "invalid sbs segment sequence"

def encodeSegmentID (volumeID : String) (extent : OffsetExtent) : String :=
  offsetFormat.encode
    { volumeID := volumeID, first := extent.offset.toNat, second := extent.paddedLength.toNat,
      third := extent.sequence.toNat }

def decodeSegmentID (value : String) : Except StorageError (String × OffsetExtent) :=
  (offsetFormat.decode value).map fun parts =>
    (parts.volumeID,
      { offset := .ofNat parts.first, paddedLength := .ofNat parts.second,
        sequence := .ofNat parts.third })

theorem decodeSegmentID_encode {volumeID : String} (colon : ':' ∉ volumeID.toList)
    (extent : OffsetExtent) :
    decodeSegmentID (encodeSegmentID volumeID extent) = .ok (volumeID, extent) := by
  rw [decodeSegmentID, encodeSegmentID, AddressFormat.decode_encode (by decide) colon
    extent.offset.toNat_lt extent.paddedLength.toNat_lt extent.sequence.toNat_lt]
  simp [Except.map]

/-- `segmentRef`, for a put with this storage class. -/
def offsetSegmentRef (config : OffsetConfig) (storageClass : StorageClassSnapshot)
    (extent : OffsetExtent) (size : UInt64) (digestHex : String) (now : Time) : SegmentRef :=
  let offset := toString extent.offset.toNat
  let paddedLength := toString extent.paddedLength.toNat
  let address : StringMap :=
    [("volume_id", config.volumeID), ("offset_bytes", offset),
     ("padded_length_bytes", paddedLength)]
  { segmentID := encodeSegmentID config.volumeID extent
    storageClass := { storageClass with
      backend := "sbs-local"
      parameters := address ++ storageClass.parameters.filter fun parameter =>
        address.lookup parameter.1 = none }
    placement :=
      { backend := "sbs-local", layout := "sbs-volume-offset", redundancyBackend := "replicated"
        profileID := storageClass.storageClassID, chunkSizeBytes := config.blockSize
        parameters := address
        chunks := [{ sizeBytes := size, volumeID := config.volumeID
                     offsetBytes := extent.offset, lengthBytes := extent.paddedLength
                     role := "primary" }] }
    sizeBytes := size
    digest := { algorithm := "sha256", hex := digestHex }
    createdAt := now }

/-! ## Putting a segment -/

/-- What a step of a put meets: errors of its context, the session fence, the state file and the
volume, and the clock. -/
structure OffsetAnswers where
  (contextError fenceError saveError writeError : Option StorageError := none)
  now : Time := 0

/-- The locals of `streamLegacySegmentWrites`; `digested` is what the hasher has seen. -/
structure StreamState where
  reader : List UInt8
  digested : List UInt8 := []
  (readPayloadBytes writtenPaddedBytes : UInt64 := 0)
deriving DecidableEq

/-- What the stream does next. -/
inductive StreamNext
  | ended (answer : Except StorageError Unit)
  | write (relativeOffset : UInt64) (data : List UInt8) (next : StreamState)

/-- One round of the loop of `streamLegacySegmentWrites`, up to its write. -/
def streamNext (contextError : Option StorageError) (blockSize size : UInt64) (s : StreamState) :
    StreamNext :=
  if blockSize = 0 then .ended (.error (.invalidArgument "sbs block size is required"))
  else if s.readPayloadBytes < size then
    match contextError with
    | some e => .ended (.error e)
    | none =>
      let chunkSize := legacySegmentWritePayloadChunkSize blockSize
      let left := size - s.readPayloadBytes
      let readLength := if chunkSize < left then chunkSize else left
      let writeLength := alignUp readLength blockSize
      if writeLength < readLength then
        .ended (.error (.invalidArgument "sbs segment write length overflow"))
      else if s.reader.length < readLength.toNat then
        .ended (.error (.invalidArgument ("read " ++
          toString (s.readPayloadBytes.toNat + s.reader.length) ++ " bytes, expected " ++
          toString size.toNat)))
      else
        let payload := s.reader.take readLength.toNat
        .write s.writtenPaddedBytes
          (payload ++ List.replicate (writeLength.toNat - readLength.toNat) 0)
          { reader := s.reader.drop readLength.toNat
            digested := s.digested ++ payload
            readPayloadBytes := s.readPayloadBytes + readLength
            writtenPaddedBytes := s.writtenPaddedBytes + writeLength }
  else if s.reader ≠ [] then
    .ended (.error (.invalidArgument "reader contains more bytes than declared size"))
  else .ended (.ok ())

/-- A call of `PutSegment`, by what it does next. -/
inductive OffsetPut
  | start
  | streaming (extent : OffsetExtent) (stream : StreamState)
  | returned (answer : Except StorageError SegmentRef)

/-- A `Write` request: its extent, its offset in the volume and its data. -/
structure OffsetWrite where
  extent : OffsetExtent
  offset : UInt64
  data : List UInt8

/-- `PutSegment` up to the end of its critical section. -/
def allocateExtent (config : OffsetConfig) (answers : OffsetAnswers) (req : PutSegmentRequest)
    (s : OffsetStore) : OffsetStore × OffsetPut :=
  let refused (e : StorageError) : OffsetStore × OffsetPut := (s, .returned (.error e))
  match answers.contextError, answers.fenceError with
  | some e, _ => refused e
  | none, fenceError =>
    if req.storageClass.storageClassID = "" then
      refused (.invalidArgument "storage class id is required")
    else
      match fenceError with
      | some e => refused e
      | none =>
        let paddedLength := alignUp req.sizeBytes config.blockSize
        let offset := alignUp s.state.nextOffset config.blockSize
        let sequence := s.state.sequence + 1
        if paddedLength > 0 ∧
            (offset + paddedLength < offset ∨ offset + paddedLength > config.volumeSize) then
          refused (.invalidArgument "sbs segment volume is full")
        else
          let advanced := { s with state := { s.state with
            sequence := sequence, nextOffset := offset + paddedLength } }
          match advanced.saveState answers.saveError with
          | (.error e, saved) => (saved, .returned (.error e))
          | (.ok _, saved) =>
            (saved, .streaming
              { offset := offset, paddedLength := paddedLength, sequence := sequence }
              { reader := req.reader })

def OffsetStore.recordLegacyOrphan (answers : OffsetAnswers) (ref : SegmentRef)
    (reason : DeleteReason) (s : OffsetStore) : Except StorageError Unit × OffsetStore :=
  if ref.segmentID ∈ s.state.deleted then (.ok (), s)
  else
    let candidate := { ref := ref, reason := reason, createdAt := answers.now }
    let queued := { s with state := { s.state with
      gcQueue := (ref.segmentID, candidate) ::
        s.state.gcQueue.filter fun entry => entry.1 ≠ ref.segmentID } }
    queued.saveState answers.saveError

/-- The end of a put whose stream failed. -/
def failedPut (platform : Platform) (config : OffsetConfig) (answers : OffsetAnswers)
    (req : PutSegmentRequest) (extent : OffsetExtent) (digested : List UInt8) (e : StorageError)
    (s : OffsetStore) : OffsetStore × OffsetPut :=
  let ref := offsetSegmentRef config req.storageClass extent req.sizeBytes
    (platform.sha256Hex digested) answers.now
  match s.recordLegacyOrphan answers ref .publishFailed with
  | (.error recordError, t) =>
    (t, .returned (.error ((joinErrors (some e) (some recordError)).getD e)))
  | (.ok _, t) => (t, .returned (.error e))

/-- The next step of a put, and the `Write` it sends. -/
def OffsetPut.serve (platform : Platform) (config : OffsetConfig) (answers : OffsetAnswers)
    (req : PutSegmentRequest) (s : OffsetStore) :
    OffsetPut → (OffsetStore × OffsetPut) × Option OffsetWrite
  | .start => (allocateExtent config answers req s, none)
  | .streaming extent stream =>
    match streamNext answers.contextError config.blockSize req.sizeBytes stream with
    | .ended (.error e) => (failedPut platform config answers req extent stream.digested e s, none)
    | .ended (.ok _) =>
      ((s, .returned (.ok (offsetSegmentRef config req.storageClass extent req.sizeBytes
        (platform.sha256Hex stream.digested) answers.now))), none)
    | .write relativeOffset data next =>
      let write : OffsetWrite :=
        { extent := extent, offset := extent.offset + relativeOffset, data := data }
      match answers.writeError with
      -- the hasher has already seen the payload of the failed write
      | some e => (failedPut platform config answers req extent next.digested e s, some write)
      | none => ((s, .streaming extent next), some write)
  | .returned answer => ((s, .returned answer), none)

/-! ## Reading a segment -/

/-- `client.Read`: the answer of the client for an offset and a length of the volume. -/
abbrev ReadVolume := UInt64 → UInt64 → Except ClientError (Option (List UInt8))

/-- `legacySegmentReader`, with the offset of the extent its `readChunk` has captured. -/
structure LegacyReader where
  extentOffset : UInt64
  nextOffset : UInt64
  remaining : UInt64

/-- `GetSegment`. For an empty range the source returns a reader of no bytes; it reads like a
segment reader with nothing remaining. -/
def OffsetStore.getSegment (config : OffsetConfig) (contextError : Option ContextError)
    (ref : SegmentRef) (off length : UInt64) (s : OffsetStore) :
    Except StorageError LegacyReader :=
  match contextError with
  | some e => .error e.error
  | none =>
    match decodeSegmentID ref.segmentID with
    | .error e => .error e
    | .ok (volumeID, extent) =>
      if volumeID ≠ config.volumeID then .error .notFound
      else if ref.segmentID ∈ s.state.deleted then .error .notFound
      else if off > ref.sizeBytes then .error .invalidRange
      else
        let readLength := if length = 0 then ref.sizeBytes - off else length
        if off + readLength < off ∨ off + readLength > ref.sizeBytes then .error .invalidRange
        else .ok { extentOffset := extent.offset, nextOffset := off, remaining := readLength }

def minUint64 (a b : UInt64) : UInt64 := if a < b then a else b

/-- `readNextChunk`, with the `readChunk` it calls. -/
def LegacyReader.readNextChunk (readVolume : ReadVolume) (contextError : Option ContextError)
    (r : LegacyReader) : Except StorageError (List UInt8 × LegacyReader) :=
  if let some e := contextError then .error e.error
  else
    let readLength := minUint64 legacySegmentReadChunkSize r.remaining
    match readVolume (r.extentOffset + r.nextOffset) readLength with
    | .error e => .error (mapSBSError e)
    | .ok none => .error (.unavailable "nil legacy sbs read response")
    | .ok (some data) =>
      if data.length < readLength.toNat then .error (.unavailable "short legacy sbs read")
      else
        .ok (data.take readLength.toNat, { r with
          nextOffset := r.nextOffset + readLength, remaining := r.remaining - readLength })

/-- A reader read to the end (`io.Copy`), in at most `rounds` chunks. -/
def LegacyReader.copyRest (readVolume : ReadVolume) (contextError : Option ContextError) :
    (rounds : Nat) → LegacyReader → Except StorageError (List UInt8)
  | 0, _ => .ok []
  | rounds + 1, r =>
    if r.remaining = 0 then .ok []
    else do
      let (data, r) ← r.readNextChunk readVolume contextError
      let rest ← copyRest readVolume contextError rounds r
      pure (data ++ rest)

/-! ## Deleting a segment -/

/-- What a `DeleteSegment` meets: its context, the delete admission, the state file and the
`Discard` request. -/
structure OffsetDeleteAnswers where
  contextError : Option ContextError := none
  (admissionError saveError : Option StorageError := none)
  discardError : Option ClientError := none

/-- `DeleteSegment`, with the extent it has discarded. -/
def OffsetStore.deleteSegment (config : OffsetConfig) (answers : OffsetDeleteAnswers)
    (ref : SegmentRef) (s : OffsetStore) :
    Except StorageError Unit × OffsetStore × Option OffsetExtent :=
  match answers.contextError with
  | some e => (.error e.error, s, none)
  | none =>
    match decodeSegmentID ref.segmentID with
    | .error e => (.error e, s, none)
    | .ok (volumeID, extent) =>
      if volumeID ≠ config.volumeID then (.error .notFound, s, none)
      else if ref.segmentID ∈ s.state.deleted then (.error .notFound, s, none)
      else
        match answers.admissionError with
        | some e => (.error e, s, none)
        | none =>
          let marked := { s with state := { s.state with
            deleted := ref.segmentID :: s.state.deleted
            gcQueue := s.state.gcQueue.filter fun entry => entry.1 ≠ ref.segmentID } }
          match marked.saveState answers.saveError with
          | (.error e, saved) => (.error e, saved, none)
          | (.ok _, saved) =>
            if extent.paddedLength = 0 then (.ok (), saved, none)
            else
              match answers.discardError with
              | some e => (.error (mapSBSError e), saved, none)
              | none => (.ok (), saved, some extent)

end Namros.Source
