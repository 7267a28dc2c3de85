import Namros.Source.OffsetStore

/-!
# The physical-chunk SBS store

`internal/storage/sbs/physical_store.go`: a segment is a run of physical chunks, whose ids an
allocator gives out. A put reads one chunk after another and writes each in a goroutine of its
own; a reader fetches a chunk at a time, from the cache or the volume. What the context, the
session fence, the allocator and the volume answer is given with each step.
-/

namespace Namros.Source

/-! ## Configuration and state -/

/-- `PhysicalConfig`, as `NewPhysicalStore` leaves it in the store. -/
structure PhysicalConfig where
  volumeID : String
  chunkSize : UInt64
  verifyReadback : Bool := false
  writeConcurrency : Nat := 1
  (fullChunkWriteMinBytes fullChunkWriteMaxBytes chunkCacheMaxBytes : UInt64 := 0)
  /-- The client is a `PhysicalChunkDeleter`. -/
  deletesChunks : Bool := true

/-- `physicalChunkCacheEntry`. -/
structure CacheEntry where
  chunkID : UInt64
  data : List UInt8
deriving DecidableEq

/-- `chunkCacheLRU` from front to back, of which `chunkCache` is the index, and
`chunkCacheBytes`. -/
structure ChunkCache where
  entries : List CacheEntry := []
  bytes : UInt64 := 0
deriving DecidableEq

inductive PhysicalRepairReason
  | writeReadbackFailed
  | writeReadbackMismatch
  | readFailed
deriving DecidableEq

structure PhysicalRepairCandidate where
  ref : SegmentRef
  reason : PhysicalRepairReason
  detail : String
  createdAt : Time
deriving DecidableEq

/-- The content of each physical chunk. -/
abbrev ChunkVolume := UInt64 → Option (List UInt8)

/-- `ReadPhysicalChunk`: the answer of the client for a chunk of this content, an offset and a
length. -/
abbrev ReadChunk :=
  Option (List UInt8) → UInt64 → UInt64 → Except ClientError (Option (List UInt8))

/-- The fields of `PhysicalStore` that change, and the volume behind it. -/
structure PhysicalStore where
  deleted : List String := []
  gcQueue : List (String × StoredCandidate) := []
  repairQueue : List (String × PhysicalRepairCandidate) := []
  cache : ChunkCache := {}
  volume : ChunkVolume := fun _ => none

/-- The store opened again. -/
def PhysicalStore.reopen (s : PhysicalStore) : PhysicalStore := { volume := s.volume }

def maxUint64 (a b : UInt64) : UInt64 := if a > b then a else b

/-! ## Addresses and references -/

structure PhysicalSegmentAddress where
  volumeID : String
  startChunkID : UInt64 := 0
  chunkCount : UInt32 := 0
  sizeBytes : UInt64 := 0
deriving DecidableEq

/-- `startChunkID + uint64(i)`. -/
def PhysicalSegmentAddress.chunkID (addr : PhysicalSegmentAddress) (i : Nat) : UInt64 :=
  addr.startChunkID + UInt64.ofNat i

def physicalFormat : AddressFormat where
  backend := "sbs-physical"
  secondBits := 32
  invalidID := "invalid sbs physical segment id"
  invalidFirst := "invalid sbs physical start chunk id"
  invalidSecond := "invalid sbs physical chunk count"
  invalidThird := "invalid sbs physical size"

def encodePhysicalSegmentID (addr : PhysicalSegmentAddress) : String :=
  physicalFormat.encode
    { volumeID := addr.volumeID, first := addr.startChunkID.toNat,
      second := addr.chunkCount.toNat, third := addr.sizeBytes.toNat }

def decodePhysicalSegmentID (value : String) : Except StorageError PhysicalSegmentAddress :=
  (physicalFormat.decode value).map fun parts =>
    { volumeID := parts.volumeID, startChunkID := .ofNat parts.first
      chunkCount := .ofNat parts.second, sizeBytes := .ofNat parts.third }

theorem decodePhysicalSegmentID_encode {addr : PhysicalSegmentAddress}
    (colon : ':' ∉ addr.volumeID.toList) :
    decodePhysicalSegmentID (encodePhysicalSegmentID addr) = .ok addr := by
  rw [decodePhysicalSegmentID, encodePhysicalSegmentID, AddressFormat.decode_encode (by decide)
    colon addr.startChunkID.toNat_lt addr.chunkCount.toNat_lt addr.sizeBytes.toNat_lt]
  simp [Except.map]

/-- `physicalChunkCount`; zero when there are too many. -/
def physicalChunkCount (size chunkSize : UInt64) : UInt32 :=
  if size = 0 then 0
  else
    let count := (size - 1) / chunkSize + 1
    if count.toNat > 2 ^ 32 - 1 then 0 else count.toUInt32

def physicalPlacementChunks (addr : PhysicalSegmentAddress) (chunkSize : UInt64) :
    List PlacementChunk :=
  (List.range addr.chunkCount.toNat).map fun i =>
    let logicalOffset := UInt64.ofNat i * chunkSize
    let length := minUint64 chunkSize (addr.sizeBytes - logicalOffset)
    { logicalOffsetBytes := logicalOffset, sizeBytes := length, volumeID := addr.volumeID
      lengthBytes := length, chunkID := addr.chunkID i, role := "data" }

/-- `segmentRef`, for a put with this storage class. -/
def physicalSegmentRef (config : PhysicalConfig) (storageClass : StorageClassSnapshot)
    (addr : PhysicalSegmentAddress) (digestHex : String) (now : Time) : SegmentRef :=
  { segmentID := encodePhysicalSegmentID addr
    storageClass := { storageClass with backend := "sbs-physical" }
    placement :=
      { backend := "sbs-physical", layout := "sbs-physical-chunks"
        redundancyBackend := "replicated", profileID := storageClass.storageClassID
        chunkSizeBytes := config.chunkSize
        parameters :=
          [("volume_id", config.volumeID), ("start_chunk_id", toString addr.startChunkID.toNat),
           ("chunk_count", toString addr.chunkCount.toNat)]
        chunks := physicalPlacementChunks addr config.chunkSize }
    sizeBytes := addr.sizeBytes
    digest := { algorithm := "sha256", hex := digestHex }
    createdAt := now }

/-! ## Queues -/

def PhysicalStore.recordPhysicalOrphan (ref : SegmentRef) (reason : DeleteReason) (now : Time)
    (s : PhysicalStore) : PhysicalStore :=
  if ref.segmentID ∈ s.deleted then s
  else
    { s with gcQueue :=
        (ref.segmentID, { ref := ref, reason := reason, createdAt := now }) ::
          s.gcQueue.filter fun entry => entry.1 ≠ ref.segmentID }

def PhysicalStore.recordPhysicalRepair (ref : SegmentRef) (reason : PhysicalRepairReason)
    (detail : String) (now : Time) (s : PhysicalStore) : PhysicalStore :=
  if ref.segmentID ∈ s.deleted then s
  else
    { s with repairQueue :=
        (ref.segmentID, { ref := ref, reason := reason, detail := detail, createdAt := now }) ::
          s.repairQueue.filter fun entry => entry.1 ≠ ref.segmentID }

/-! ## The chunk cache -/

def CacheEntry.size (entry : CacheEntry) : UInt64 := .ofNat entry.data.length

/-- `chunkCacheBytes` without an entry. -/
def bytesWithout (entry : CacheEntry) (bytes : UInt64) : UInt64 :=
  if bytes ≥ entry.size then bytes - entry.size else 0

/-- `removeCachedChunkElement` of the element with this id, if there is one. -/
def ChunkCache.remove (chunkID : UInt64) (cache : ChunkCache) : ChunkCache :=
  match cache.entries.find? (·.chunkID = chunkID) with
  | none => cache
  | some entry =>
    { entries := cache.entries.filter (·.chunkID ≠ chunkID)
      bytes := bytesWithout entry cache.bytes }

/-- The loop at the end of `cacheChunk`, over the entries from the back. -/
def evictFromBack (maxBytes : UInt64) : List CacheEntry → UInt64 → List CacheEntry × UInt64
  | [], bytes => ([], bytes)
  | tail :: others, bytes =>
    if bytes > maxBytes then evictFromBack maxBytes others (bytesWithout tail bytes)
    else (tail :: others, bytes)

def ChunkCache.cacheChunk (maxBytes chunkID : UInt64) (data : List UInt8) (cache : ChunkCache) :
    ChunkCache :=
  if maxBytes = 0 ∨ data = [] ∨ UInt64.ofNat data.length > maxBytes then cache
  else
    let rest := cache.remove chunkID
    let entry : CacheEntry := { chunkID := chunkID, data := data }
    let (kept, bytes) :=
      evictFromBack maxBytes (entry :: rest.entries).reverse (rest.bytes + entry.size)
    { entries := kept.reverse, bytes := bytes }

/-- `readCachedChunk`: the range of a cached chunk, and the cache with that chunk in front. -/
def ChunkCache.readCachedChunk (maxBytes chunkID off length : UInt64) (cache : ChunkCache) :
    Option (List UInt8 × ChunkCache) :=
  if maxBytes = 0 then none
  else
    match cache.entries.find? (·.chunkID = chunkID) with
    | none => none
    | some entry =>
      let stop := off + length
      if stop < off ∨ off.toNat > entry.data.length ∨ stop.toNat > entry.data.length then none
      else
        some ((entry.data.drop off.toNat).take (stop.toNat - off.toNat),
          { cache with
            entries := entry :: cache.entries.filter (·.chunkID ≠ chunkID) })

def ChunkCache.evictCachedChunk (maxBytes chunkID : UInt64) (cache : ChunkCache) : ChunkCache :=
  if maxBytes = 0 then cache else cache.remove chunkID

/-! ## Reading a segment -/

/-- `physicalSegmentReader`. -/
structure PhysicalReader where
  ref : SegmentRef
  addr : PhysicalSegmentAddress
  nextOffset : UInt64
  remaining : UInt64
  allowCache : Bool
  buf : List UInt8 := []
  closed : Bool := false
deriving DecidableEq

/-- `getSegment`. For an empty range the source returns a reader of no bytes; it reads like a
segment reader with nothing remaining. -/
def PhysicalStore.getSegment (config : PhysicalConfig) (contextError : Option ContextError)
    (ref : SegmentRef) (off length : UInt64) (allowCache : Bool) (s : PhysicalStore) :
    Except StorageError PhysicalReader :=
  match contextError with
  | some e => .error e.error
  | none =>
    match decodePhysicalSegmentID ref.segmentID with
    | .error e => .error e
    | .ok addr =>
      if addr.volumeID ≠ config.volumeID then .error .notFound
      else if ref.segmentID ∈ s.deleted then .error .notFound
      else if off > addr.sizeBytes then .error .invalidRange
      else
        let readLength := if length = 0 then addr.sizeBytes - off else length
        if off + readLength < off ∨ off + readLength > addr.sizeBytes then .error .invalidRange
        else
          .ok { ref := ref, addr := addr, nextOffset := off, remaining := readLength,
                allowCache := allowCache }

/-- A range of a physical chunk. -/
structure ChunkWindow where
  physicalChunkID : UInt64
  chunkOffset : UInt64
  chunkLength : UInt64

/-- What `readNextChunk` is to read: the part of the next chunk that is in the reader's range. -/
def PhysicalReader.nextWindow (config : PhysicalConfig) (r : PhysicalReader) : ChunkWindow :=
  let logicalChunk := r.nextOffset / config.chunkSize
  let chunkStart := logicalChunk * config.chunkSize
  let copyStart := maxUint64 r.nextOffset chunkStart
  let copyEnd := minUint64 (r.nextOffset + r.remaining) (chunkStart + config.chunkSize)
  { physicalChunkID := r.addr.startChunkID + logicalChunk
    chunkOffset := copyStart - chunkStart
    chunkLength := copyEnd - copyStart }

/-- `ReadPhysicalChunk` and the checks of its response. -/
def fetchWindow (readChunk : ReadChunk) (content : Option (List UInt8)) (window : ChunkWindow) :
    Except StorageError (List UInt8) :=
  match readChunk content window.chunkOffset window.chunkLength with
  | .error e => .error (mapSBSError e)
  | .ok none => .error (.unavailable "nil physical chunk read response")
  | .ok (some data) =>
    if data.length < window.chunkLength.toNat then
      .error (.unavailable "short physical chunk read")
    else .ok data

/-- The reader past a part it has read. -/
def PhysicalReader.advance (r : PhysicalReader) (chunkLength : UInt64) : PhysicalReader :=
  { r with nextOffset := r.nextOffset + chunkLength, remaining := r.remaining - chunkLength }

def PhysicalReader.readNextChunk (config : PhysicalConfig) (readChunk : ReadChunk)
    (contextError : Option ContextError) (now : Time) (r : PhysicalReader) (s : PhysicalStore) :
    Except StorageError (List UInt8) × PhysicalReader × PhysicalStore :=
  match contextError with
  | some e => (.error e.error, r, s)
  | none =>
    let window := r.nextWindow config
    let hit := if r.allowCache then
        s.cache.readCachedChunk config.chunkCacheMaxBytes window.physicalChunkID
          window.chunkOffset window.chunkLength
      else none
    match hit with
    | some (cached, cache) => (.ok cached, r.advance window.chunkLength, { s with cache := cache })
    | none =>
      match fetchWindow readChunk (s.volume window.physicalChunkID) window with
      | .error e => (.error e, r, s.recordPhysicalRepair r.ref .readFailed e.text now)
      | .ok data =>
        let whole := window.chunkOffset = 0 ∧ window.chunkLength = config.chunkSize ∧
          data.length ≥ config.chunkSize.toNat
        (.ok (data.take window.chunkLength.toNat), r.advance window.chunkLength,
          if whole then
            { s with
              cache := s.cache.cacheChunk config.chunkCacheMaxBytes window.physicalChunkID
                (data.take config.chunkSize.toNat) }
          else s)

inductive ReadResult
  | bytes (data : List UInt8)
  | eof
  | failed (e : StorageError)
deriving DecidableEq

/-- `Read` with a buffer of `n` bytes. -/
def PhysicalReader.read (config : PhysicalConfig) (readChunk : ReadChunk)
    (contextError : Option ContextError) (now : Time) (n : Nat) (r : PhysicalReader)
    (s : PhysicalStore) : ReadResult × PhysicalReader × PhysicalStore :=
  if n = 0 then (.bytes [], r, s)
  else if r.closed then (.failed (.other "io: read/write on closed pipe"), r, s)
  else if r.buf ≠ [] then (.bytes (r.buf.take n), { r with buf := r.buf.drop n }, s)
  else if r.remaining = 0 then (.eof, r, s)
  else
    match r.readNextChunk config readChunk contextError now s with
    | (.error e, r', t) => (.failed e, r', t)
    | (.ok data, r', t) => (.bytes (data.take n), { r' with buf := data.drop n }, t)

/-- The rest of a reader with an empty buffer, read to the end (`io.Copy`), in at most `rounds`
chunks. -/
def PhysicalReader.copyRest (config : PhysicalConfig) (readChunk : ReadChunk)
    (contextError : Option ContextError) (now : Time) :
    (rounds : Nat) → PhysicalReader → PhysicalStore →
      Except StorageError (List UInt8) × PhysicalStore
  | 0, _, s => (.ok [], s)
  | rounds + 1, r, s =>
    if r.remaining = 0 then (.ok [], s)
    else
      match r.readNextChunk config readChunk contextError now s with
      | (.error e, _, t) => (.error e, t)
      | (.ok data, r', t) =>
        match copyRest config readChunk contextError now rounds r' t with
        | (.error e, t') => (.error e, t')
        | (.ok rest, t') => (.ok (data ++ rest), t')

/-! ## Putting a segment -/

def PhysicalConfig.shouldFullChunkWrite (config : PhysicalConfig) (length : UInt64) : Bool :=
  if length = 0 ∨ length ≥ config.chunkSize then false
  else if config.fullChunkWriteMaxBytes = 0 then false
  else if config.fullChunkWriteMinBytes > 0 ∧ config.chunkSize < config.fullChunkWriteMinBytes then
    false
  else config.chunkSize ≤ config.fullChunkWriteMaxBytes

/-- What is written for a chunk of the payload. -/
def PhysicalConfig.writePayload (config : PhysicalConfig) (chunkPayload : List UInt8) :
    List UInt8 :=
  if config.shouldFullChunkWrite (.ofNat chunkPayload.length) then
    chunkPayload ++ List.replicate (config.chunkSize.toNat - chunkPayload.length) 0
  else chunkPayload

/-- The goroutine of one chunk: before its write, or (`written`) before it caches the chunk. -/
structure ChunkWrite where
  logicalChunk : Nat
  payload : List UInt8
  written : Bool := false
deriving DecidableEq

/-- The locals of a `PutSegment` whose chunks are allocated. `readErr` is set once the reader
fell short; `digested` is what the hasher has seen. -/
structure PutProgress where
  addr : PhysicalSegmentAddress
  next : Nat := 0
  reader : List UInt8
  digested : List UInt8 := []
  writes : List ChunkWrite := []
  (writeErr readErr : Option StorageError := none)
deriving DecidableEq

/-- A call of `PutSegment`, by what it does next. -/
inductive PhysicalPut
  | start
  | writing (progress : PutProgress)
  | returned (answer : Except StorageError SegmentRef)

/-- What the start of a put meets. -/
structure PutAnswers where
  contextError : Option ContextError := none
  fenceError : Option StorageError := none
  /-- `AllocateChunkIDs`. -/
  allocated : Except ClientError UInt64
  now : Time := 0

/-- What a chunk write meets; one that fails leaves the chunk with any content. -/
inductive WriteAnswer
  | stored
  | failed (e : ClientError) (content : Option (List UInt8))

/-- What a put does next: its start, the next round of its loop, the write or the caching of one
of its goroutines, and its end. -/
inductive PutAction
  | start (answers : PutAnswers)
  | round
  | write (index : Nat) (answer : WriteAnswer)
  | cache (index : Nat)
  | finish (contextError : Option ContextError) (now : Time)

def ensureEmptyReader (reader : List UInt8) : Except StorageError Unit :=
  if reader ≠ [] then
    .error (.invalidArgument "reader contains more bytes than declared size")
  else .ok ()

/-- `PutSegment` up to its loop. -/
def PhysicalConfig.beginPut (config : PhysicalConfig) (platform : Platform) (answers : PutAnswers)
    (req : PutSegmentRequest) : PhysicalPut :=
  match answers.contextError with
  | some e => .returned (.error e.error)
  | none =>
    if req.storageClass.storageClassID = "" then
      .returned (.error (.invalidArgument "storage class id is required"))
    else
      match answers.fenceError with
      | some e => .returned (.error e)
      | none =>
        if req.sizeBytes = 0 then
          .returned ((ensureEmptyReader req.reader).map fun _ =>
            physicalSegmentRef config req.storageClass { volumeID := config.volumeID }
              (platform.sha256Hex []) answers.now)
        else
          let chunkCount := physicalChunkCount req.sizeBytes config.chunkSize
          if chunkCount = 0 then
            .returned (.error
              (.invalidArgument "physical segment exceeds maximum chunk count"))
          else
            match answers.allocated with
            | .error e => .returned (.error (mapSBSError e))
            | .ok startChunkID =>
              .writing
                { addr :=
                    { volumeID := config.volumeID, startChunkID := startChunkID
                      chunkCount := chunkCount, sizeBytes := req.sizeBytes }
                  reader := req.reader }

/-- A round of the loop: the next chunk is read, and its goroutine started once there is a
slot. -/
def PhysicalConfig.putRound (config : PhysicalConfig) (p : PutProgress) : PutProgress :=
  if p.readErr.isSome ∨ p.next ≥ p.addr.chunkCount.toNat then p
  else
    let offset := UInt64.ofNat p.next * config.chunkSize
    let length := minUint64 config.chunkSize (p.addr.sizeBytes - offset)
    if length = 0 then { p with next := p.next + 1 }
    else if p.reader.length < length.toNat then
      { p with readErr := some (.invalidArgument ("read " ++
          toString (p.digested.length + p.reader.length) ++ " bytes, expected " ++
          toString p.addr.sizeBytes.toNat)) }
    else if p.writes.length ≥ Nat.min config.writeConcurrency p.addr.chunkCount.toNat then p
    else
      let chunkPayload := p.reader.take length.toNat
      { p with
        next := p.next + 1
        reader := p.reader.drop length.toNat
        digested := p.digested ++ chunkPayload
        writes := p.writes ++
          [{ logicalChunk := p.next, payload := config.writePayload chunkPayload }] }

/-- `WritePhysicalChunk` of a goroutine, which ends unless it has a whole chunk to cache. -/
def PhysicalConfig.writeChunk (config : PhysicalConfig) (index : Nat) (answer : WriteAnswer)
    (p : PutProgress) (s : PhysicalStore) : PutProgress × PhysicalStore :=
  match p.writes[index]? with
  | some { logicalChunk, payload, written := false } =>
    let chunkID := p.addr.chunkID logicalChunk
    match answer with
    | .failed e content =>
      ({ p with
          writes := p.writes.eraseIdx index
          writeErr := p.writeErr <|> some (mapSBSError e) },
        { s with volume := fun id => if id = chunkID then content else s.volume id })
    | .stored =>
      let stored : PhysicalStore :=
        { s with volume := fun id => if id = chunkID then some payload else s.volume id }
      if payload.length = config.chunkSize.toNat then
        ({ p with
            writes := p.writes.set index
              { logicalChunk := logicalChunk, payload := payload, written := true } },
          stored)
      else ({ p with writes := p.writes.eraseIdx index }, stored)
  | _ => (p, s)

/-- The end of a goroutine that caches its chunk. -/
def PhysicalConfig.cacheWritten (config : PhysicalConfig) (index : Nat) (p : PutProgress)
    (s : PhysicalStore) : PutProgress × PhysicalStore :=
  match p.writes[index]? with
  | some { logicalChunk, payload, written := true } =>
    ({ p with writes := p.writes.eraseIdx index },
      { s with
        cache := s.cache.cacheChunk config.chunkCacheMaxBytes (p.addr.chunkID logicalChunk)
          payload })
  | _ => (p, s)

def PhysicalConfig.verifySegmentReadback (config : PhysicalConfig) (platform : Platform)
    (readChunk : ReadChunk) (contextError : Option ContextError) (now : Time) (ref : SegmentRef)
    (wantSize : UInt64) (wantDigestHex : String) (s : PhysicalStore) :
    Except (PhysicalRepairReason × StorageError) Unit × PhysicalStore :=
  let failed (e : StorageError) :=
    (.error (.writeReadbackFailed,
      .unavailable ("physical write readback failed: " ++ e.text)))
  match s.getSegment config contextError ref 0 ref.sizeBytes false with
  | .error e => (failed e, s)
  | .ok reader =>
    match reader.copyRest config readChunk contextError now reader.remaining.toNat s with
    | (.error e, t) => (failed e, t)
    | (.ok copied, t) =>
      if copied.length ≠ wantSize.toNat then
        (.error (.writeReadbackMismatch,
          .unavailable "physical write readback size mismatch"), t)
      else if platform.sha256Hex copied ≠ wantDigestHex then
        (.error (.writeReadbackMismatch, .unavailable "physical write readback mismatch"), t)
      else (.ok (), t)

/-- The end of `PutSegment`, once the loop is over and every goroutine has ended. -/
def PhysicalConfig.finishPut (config : PhysicalConfig) (platform : Platform)
    (readChunk : ReadChunk) (contextError : Option ContextError) (now : Time)
    (req : PutSegmentRequest) (p : PutProgress) (s : PhysicalStore) :
    PhysicalPut × PhysicalStore :=
  let ref := physicalSegmentRef config req.storageClass p.addr (platform.sha256Hex p.digested) now
  let orphaned := s.recordPhysicalOrphan ref .publishFailed now
  if p.writes ≠ [] then (.writing p, s)
  else
    match p.readErr with
    | some e => (.returned (.error e), if p.digested ≠ [] then orphaned else s)
    | none =>
      if p.next < p.addr.chunkCount.toNat then (.writing p, s)
      else
        match p.writeErr, ensureEmptyReader p.reader with
        | some e, _ => (.returned (.error e), orphaned)
        | none, .error e => (.returned (.error e), orphaned)
        | none, .ok _ =>
          if config.verifyReadback then
            match config.verifySegmentReadback platform readChunk contextError now ref
                req.sizeBytes (platform.sha256Hex p.digested) s with
            | (.error (reason, e), t) =>
              (.returned (.error e),
                (t.recordPhysicalOrphan ref .publishFailed now).recordPhysicalRepair ref reason
                  e.text now)
            | (.ok _, t) => (.returned (.ok ref), t)
          else (.returned (.ok ref), s)

/-- The next step of a put. An action it is not at does nothing. -/
def PhysicalPut.serve (config : PhysicalConfig) (platform : Platform) (readChunk : ReadChunk)
    (req : PutSegmentRequest) (s : PhysicalStore) :
    PutAction → PhysicalPut → PhysicalPut × PhysicalStore
  | .start answers, .start => (config.beginPut platform answers req, s)
  | .round, .writing p => (.writing (config.putRound p), s)
  | .write index answer, .writing p =>
    let (p', t) := config.writeChunk index answer p s
    (.writing p', t)
  | .cache index, .writing p =>
    let (p', t) := config.cacheWritten index p s
    (.writing p', t)
  | .finish contextError now, .writing p =>
    config.finishPut platform readChunk contextError now req p s
  | _, call => (call, s)

/-! ## Deleting a segment -/

/-- What a `DeleteSegment` meets: its context, the delete admission, and the `i`-th
`DeletePhysicalChunk`. -/
structure PhysicalDeleteAnswers where
  contextError : Option ContextError := none
  admissionError : Option StorageError := none
  chunkError : Nat → Option ClientError := fun _ => none

/-- The loop that deletes `count` chunks from the `i`-th on. -/
def deletePhysicalChunks (addr : PhysicalSegmentAddress) (chunkError : Nat → Option ClientError) :
    (i count : Nat) → ChunkVolume → Except StorageError Unit × ChunkVolume
  | _, 0, volume => (.ok (), volume)
  | i, count + 1, volume =>
    match chunkError i with
    | some e => (.error (.unavailable e.text), volume)
    | none =>
      deletePhysicalChunks addr chunkError (i + 1) count
        fun id => if id = addr.chunkID i then none else volume id

def PhysicalStore.deleteSegment (config : PhysicalConfig) (answers : PhysicalDeleteAnswers)
    (ref : SegmentRef) (s : PhysicalStore) : Except StorageError Unit × PhysicalStore :=
  match answers.contextError with
  | some e => (.error e.error, s)
  | none =>
    match decodePhysicalSegmentID ref.segmentID with
    | .error e => (.error e, s)
    | .ok addr =>
      if addr.volumeID ≠ config.volumeID then (.error .notFound, s)
      else if ref.segmentID ∈ s.deleted then (.error .notFound, s)
      else
        match answers.admissionError with
        | some e => (.error e, s)
        | none =>
          let marked : PhysicalStore := { s with
            deleted := ref.segmentID :: s.deleted
            gcQueue := s.gcQueue.filter fun entry => entry.1 ≠ ref.segmentID
            cache := (List.range addr.chunkCount.toNat).foldl
              (fun cache i => cache.evictCachedChunk config.chunkCacheMaxBytes (addr.chunkID i))
              s.cache }
          if config.deletesChunks then
            let (answer, volume) := deletePhysicalChunks addr answers.chunkError 0
              addr.chunkCount.toNat marked.volume
            (answer, { marked with volume := volume })
          else (.ok (), marked)

end Namros.Source
