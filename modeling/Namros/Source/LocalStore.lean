import Namros.Source.PhysicalStore

/-!
# The local store

`internal/storage/local/store.go`: a segment is a file, or, with an erasure-code storage class, a
directory of shard files. The Reed-Solomon encoder is a parameter. Of the file system only
missing files are modelled.
-/

namespace Namros.Source

def ecLayout : String := "local-ec-shards"

/-- `reedsolomon.Encoder`; a shard that is missing has no bytes. -/
structure ShardEncoder where
  encode : List (List UInt8) → Except String (List (List UInt8))
  reconstruct : List (List UInt8) → Except String (List (List UInt8))
  join : List (List UInt8) → Int → Except String (List UInt8)

/-- `reedsolomon.New`, of data and parity shards. -/
abbrev NewEncoder := Nat → Nat → Except String ShardEncoder

/-- What is stored at the path of a segment: a file, or a directory of numbered shards. -/
structure LocalStore where
  file (segmentID : String) : Option (List UInt8) := none
  shards (segmentID : String) : Option (Nat → Option (List UInt8)) := none

/-- What `GetSegment` and reading to the end come to. -/
inductive SegmentRead
  | bytes (data : List UInt8)
  | failed (e : StorageError)
  | panicked
deriving DecidableEq

def SegmentRead.of : Except StorageError (List UInt8) → SegmentRead
  | .ok data => .bytes data
  | .error e => .failed e

/-! ## Parameters -/

/-- `intParam`: what `strconv.Atoi` returns beside its error, zero for a text that is no number
and the nearest `int` for a number out of range. -/
def intParam (params : StringMap) (key : String) : Int :=
  let text := ((params.lookup key).getD "").toList
  let negative := text.head? = some '-'
  let digits := if negative ∨ text.head? = some '+' then text.tail else text
  if digits = [] ∨ ¬ digits.all Char.isDigit then 0
  else
    let value : Int := Nat.ofDigitChars 10 digits 0
    if negative then max (-(2 ^ 63)) (-value) else min value (2 ^ 63 - 1)

def uintParam (params : StringMap) (key : String) : UInt64 :=
  let digits := ((params.lookup key).getD "").toList
  if digits = [] ∨ ¬ digits.all Char.isDigit then 0
  else .ofNat (min (Nat.ofDigitChars 10 digits 0) (2 ^ 64 - 1))

def ecShardConfig (snapshot : StorageClassSnapshot) : Except StorageError (Nat × Nat) :=
  let dataShards := intParam snapshot.parameters "data_shards"
  let parityShards := intParam snapshot.parameters "parity_shards"
  if dataShards ≤ 0 ∨ parityShards ≤ 0 then
    .error (.invalidArgument "ec data/parity shards are required")
  else .ok (dataShards.toNat, parityShards.toNat)

def ecShardConfigFromRef (ref : SegmentRef) : Except StorageError (Nat × Nat) :=
  let param (key : String) : Int :=
    let placed := intParam ref.placement.parameters key
    if placed ≤ 0 then intParam ref.storageClass.parameters key else placed
  if param "data_shards" ≤ 0 ∨ param "parity_shards" ≤ 0 then
    .error (.invalidArgument "ec data/parity shards are required")
  else .ok ((param "data_shards").toNat, (param "parity_shards").toNat)

/-! ## Putting an erasure-coded segment -/

/-- `ceilDivInt`, in 64 bits. -/
def ceilDivInt (value divisor : Int) : Int :=
  if divisor ≤ 0 ∨ value ≤ 0 then 0 else ((value + divisor - 1).bmod (2 ^ 64)).tdiv divisor

/-- The loop of `putECSegment` over the data shards, with what the reader has left. -/
def readDataShards (req : PutSegmentRequest) (shardSize : Nat) :
    List Nat → List UInt8 → Except StorageError (List (List UInt8) × List UInt8)
  | [], reader => .ok ([], reader)
  | shardID :: later, reader =>
    let size := req.sizeBytes.toNat
    let start := shardID * shardSize
    let logicalLength := if start < size then min shardSize (size - start) else 0
    if reader.length < logicalLength then
      .error (.invalidArgument ("read " ++ toString req.reader.length ++ " bytes, expected " ++
        toString size))
    else do
      let (shards, rest) ← readDataShards req shardSize later (reader.drop logicalLength)
      .ok ((reader.take logicalLength ++ List.replicate (shardSize - logicalLength) 0) :: shards,
        rest)

def ecPlacementChunks (dataShards parityShards : Nat) (size shardSize : UInt64) :
    List PlacementChunk :=
  (List.range (dataShards + parityShards)).map fun shardID =>
    let data := shardID < dataShards
    let logicalOffset := if data then UInt64.ofNat shardID * shardSize else 0
    { logicalOffsetBytes := logicalOffset
      sizeBytes := if data ∧ logicalOffset < size then minUint64 shardSize (size - logicalOffset)
        else 0
      lengthBytes := shardSize, shardID := .ofNat shardID
      role := if data then "data" else "parity" }

/-- The reference `putECSegment` returns. -/
def ecSegmentRef (req : PutSegmentRequest) (segmentID digestHex : String) (now : Time)
    (dataShards parityShards : Nat) (shardSize : UInt64) : SegmentRef :=
  { segmentID := segmentID
    storageClass := req.storageClass
    placement :=
      { backend := if req.storageClass.backend = "" then "local" else req.storageClass.backend
        layout := ecLayout, redundancyBackend := "erasure-code"
        profileID := req.storageClass.storageClassID
        profileGeneration := uintParam req.storageClass.parameters "profile_generation"
        chunkSizeBytes := shardSize
        parameters :=
          [("data_shards", toString dataShards), ("parity_shards", toString parityShards),
           ("shard_size_bytes", toString shardSize.toNat),
           ("original_size_bytes", toString req.sizeBytes.toNat)]
        chunks := ecPlacementChunks dataShards parityShards req.sizeBytes shardSize }
    sizeBytes := req.sizeBytes
    digest := { algorithm := "sha256", hex := digestHex }
    createdAt := now }

/-- `putECSegment`, with the contents of the shard files it writes. -/
def putECSegment (platform : Platform) (newEncoder : NewEncoder)
    (contextError : Option ContextError) (segmentID : String) (now : Time)
    (req : PutSegmentRequest) : Except StorageError (SegmentRef × List (List UInt8)) :=
  if let some e := contextError then .error e.error
  else if req.sizeBytes = 0 then do
    ensureEmptyReader req.reader
    .error (.invalidArgument "ec segment payload is empty")
  else if req.sizeBytes > maxInt64Uint then
    .error (.invalidArgument "ec segment exceeds maximum supported size")
  else do
    let (dataShards, parityShards) ← ecShardConfig req.storageClass
    let encoder ← (newEncoder dataShards parityShards).mapError fun text =>
      .invalidArgument ("create ec encoder: " ++ text)
    let shardSize := (max 1 (ceilDivInt req.sizeBytes.toNat dataShards)).toNat
    let (shards, rest) ← readDataShards req shardSize (List.range dataShards) req.reader
    ensureEmptyReader rest
    let coded ← (encoder.encode
        (shards ++ List.replicate parityShards (List.replicate shardSize 0))).mapError fun text =>
      .unavailable ("encode ec payload: " ++ text)
    .ok (ecSegmentRef req segmentID (platform.sha256Hex req.reader) now dataShards parityShards
      (.ofNat shardSize), coded)

/-! ## Reading a segment -/

/-- The end of `getECSegment`: `data[off:end]`, which panics for an end before its start. -/
def sliceECPayload (data : List UInt8) (off length : UInt64) : SegmentRead :=
  let size := UInt64.ofNat data.length
  let stop := if length > 0 ∧ off + length < size then off + length else size
  if stop < off ∨ data.length < stop.toNat then .panicked
  else .bytes ((data.drop off.toNat).take (stop.toNat - off.toNat))

def LocalStore.getECSegment (newEncoder : NewEncoder) (contextError : Option ContextError)
    (ref : SegmentRef) (off length : UInt64) (s : LocalStore) : SegmentRead :=
  if let some e := contextError then .failed e.error
  else if off > ref.sizeBytes then .failed .invalidRange
  else
    match ecShardConfigFromRef ref with
    | .error e => .failed e
    | .ok (dataShards, parityShards) =>
      match newEncoder dataShards parityShards with
      | .error text => .failed (.invalidArgument ("create ec encoder: " ++ text))
      | .ok encoder =>
        match s.shards ref.segmentID with
        | none => .failed .notFound
        | some file =>
          match encoder.reconstruct
              ((List.range (dataShards + parityShards)).map fun i => (file i).getD []) with
          | .error text => .failed (.unavailable ("reconstruct ec segment: " ++ text))
          | .ok shards =>
            match encoder.join shards (asInt64 ref.sizeBytes) with
            | .error text => .failed (.unavailable ("join ec segment: " ++ text))
            | .ok data => sliceECPayload data off length

/-- `GetSegment`; `io.LimitReader` reads nothing for a negative limit. -/
def LocalStore.getSegment (newEncoder : NewEncoder) (contextError : Option ContextError)
    (ref : SegmentRef) (off length : UInt64) (s : LocalStore) : SegmentRead :=
  if let some e := contextError then .failed e.error
  else if ref.segmentID = "" then .failed (.invalidArgument "segment id is required")
  else if ref.placement.layout = ecLayout then s.getECSegment newEncoder none ref off length
  else
    match s.file ref.segmentID with
    | none => .failed .notFound
    | some content =>
      if off.toNat > content.length then .failed .invalidRange
      else if asInt64 off < 0 then .failed (.other "seek: invalid argument")
      else if length = 0 then .bytes (content.drop off.toNat)
      else .bytes ((content.drop off.toNat).take (asInt64 length).toNat)

end Namros.Source
