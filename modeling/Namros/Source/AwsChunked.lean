import Mathlib.Algebra.Group.Nat.Defs
import Namros.Library.ByteString
import Namros.Library.Delimited
import Namros.Library.Trimming

/-!
# The aws-chunked body reader

`awsChunkedReader` of `internal/gateway/aws_chunked.go:55-165`, over a finite stream. The
buffered reader below it is the rest of the stream; it comes to its end and fails in no other
way. A reader that has failed is not read again, so a failing step leaves the stream as it was.
-/

namespace Namros.Source

open Library

/-! ## Text -/

/-- The UTF-8 forms of the characters `unicode.IsSpace` accepts. -/
def whiteSpace : List Bytes :=
  [[0x09], [0x0a], [0x0b], [0x0c], [0x0d], [0x20], [0xc2, 0x85], [0xc2, 0xa0],
   [0xe1, 0x9a, 0x80],
   [0xe2, 0x80, 0x80], [0xe2, 0x80, 0x81], [0xe2, 0x80, 0x82], [0xe2, 0x80, 0x83],
   [0xe2, 0x80, 0x84], [0xe2, 0x80, 0x85], [0xe2, 0x80, 0x86], [0xe2, 0x80, 0x87],
   [0xe2, 0x80, 0x88], [0xe2, 0x80, 0x89], [0xe2, 0x80, 0x8a],
   [0xe2, 0x80, 0xa8], [0xe2, 0x80, 0xa9], [0xe2, 0x80, 0xaf], [0xe2, 0x81, 0x9f],
   [0xe3, 0x80, 0x80]]

/-- `strings.TrimSpace` on the bytes of a line. -/
def trimBytes (text : Bytes) : Bytes := trimEnd whiteSpace (trimStart whiteSpace text)

/-- The digit a byte stands for in `strconv.ParseUint(_, 16, 64)`. -/
def hexDigitValue (c : UInt8) : Option Nat :=
  let lower := c ||| 0x20
  if 0x30 ≤ c ∧ c ≤ 0x39 then some (c.toNat - 0x30)
  else if 0x61 ≤ lower ∧ lower ≤ 0x66 then some (lower.toNat - 0x61 + 10)
  else none

/-- The digit loop of `ParseUint`, from the number read so far. -/
def parseHexFrom : Nat → Bytes → Option Nat
  | n, [] => some n
  | n, c :: text =>
    match hexDigitValue c with
    | none => none
    | some d => if n * 16 + d < 2 ^ 64 then parseHexFrom (n * 16 + d) text else none

/-- `strconv.ParseUint(text, 16, 64)`. -/
def parseHex (text : Bytes) : Option Nat := if text = [] then none else parseHexFrom 0 text

/-! ## The stream -/

/-- `readLine`: the line without its CRLF, and the rest of the stream. -/
def readLine (br : Bytes) : Except String (Bytes × Bytes) :=
  match Delimited.cutAt 0x0a br with
  | none => .error "truncated chunk line"
  | some (line, rest) =>
    if line.getLast? ≠ some 0x0d then .error "chunk line missing CRLF"
    else .ok (line.dropLast, rest)

def nextChunkSize (br : Bytes) : Except String (Nat × Bytes) :=
  match readLine br with
  | .error e => .error e
  | .ok (line, rest) =>
    let sizeText := ((Delimited.cutAt 0x3b line).map Prod.fst).getD line
    match parseHex (trimBytes sizeText) with
    | none => .error "invalid chunk size"
    | some size => .ok (size, rest)

def consumeCRLF : Bytes → Except String Bytes
  | cr :: lf :: rest =>
    if cr ≠ 0x0d ∨ lf ≠ 0x0a then .error "chunk data missing CRLF" else .ok rest
  | _ => .error "truncated chunk terminator"

/-- The loop of `consumeTrailers`; every line takes at least two bytes of the stream. -/
def consumeTrailersFrom : Nat → Bytes → Except String Bytes
  | 0, _ => .error "truncated chunk line"
  | fuel + 1, br =>
    match readLine br with
    | .error e => .error e
    | .ok (line, rest) => if line = [] then .ok rest else consumeTrailersFrom fuel rest

def consumeTrailers (br : Bytes) : Except String Bytes := consumeTrailersFrom (br.length + 1) br

/-! ## The reader -/

/-- What a `Read` reports: `io.EOF`, or an error that wraps `errInvalidAWSChunkedBody`. -/
inductive BodyError
  | eof
  | invalidBody (detail : String)
deriving DecidableEq

/-- The bytes and the error of one `Read`. -/
structure BodyRead where
  bytes : Bytes := []
  err : Option BodyError := none
deriving DecidableEq

structure AwsChunkedReader where
  br : Bytes
  remain : Nat := 0
  (done needCRLF : Bool := false)
  readError : Option BodyError := none
deriving DecidableEq

def newAWSChunkedReader (stream : Bytes) : AwsChunkedReader := { br := stream }

namespace AwsChunkedReader

/-- A `Read` that fails keeps its error. -/
def fail (r : AwsChunkedReader) (bytes : Bytes) (detail : String) : BodyRead × AwsChunkedReader :=
  ({ bytes := bytes, err := some (.invalidBody detail) },
    { r with readError := some (.invalidBody detail) })

/-- The end of `Read`: the next bytes of the chunk, up to the size of the buffer. -/
def readPayload (size : Nat) (r : AwsChunkedReader) : BodyRead × AwsChunkedReader :=
  let wanted := if size > r.remain then r.remain else size
  let bytes := r.br.take wanted
  let r := { r with br := r.br.drop wanted, remain := r.remain - bytes.length }
  if bytes.length < wanted then r.fail bytes "truncated chunk data"
  else ({ bytes := bytes }, if r.remain = 0 then { r with needCRLF := true } else r)

/-- The middle of `Read`: a reader between two chunks goes to the next one. -/
def readChunk (size : Nat) (r : AwsChunkedReader) : BodyRead × AwsChunkedReader :=
  if r.remain ≠ 0 then r.readPayload size
  else
    match nextChunkSize r.br with
    | .error e => r.fail [] e
    | .ok (chunkSize, rest) =>
      if chunkSize = 0 then
        match consumeTrailers rest with
        | .error e => { r with done := true }.fail [] e
        | .ok rest => ({ err := some .eof }, { r with br := rest, done := true })
      else { r with br := rest, remain := chunkSize }.readPayload size

/-- `Read` with a buffer of the given size. -/
def read (size : Nat) (r : AwsChunkedReader) : BodyRead × AwsChunkedReader :=
  match r.readError with
  | some e => ({ err := some e }, r)
  | none =>
    if size = 0 then ({}, r)
    else if r.done then ({ err := some .eof }, r)
    else if r.needCRLF then
      match consumeCRLF r.br with
      | .error e => r.fail [] e
      | .ok rest => { r with br := rest, needCRLF := false }.readChunk size
    else r.readChunk size

end AwsChunkedReader

/-- The reader after the first `n` calls of `Read`, with buffers of the given sizes. -/
def readerAfter (stream : Bytes) (sizes : Nat → Nat) : Nat → AwsChunkedReader
  | 0 => newAWSChunkedReader stream
  | n + 1 => ((readerAfter stream sizes n).read (sizes n)).2

/-- What the call number `n` of `Read` returns. -/
def readAt (stream : Bytes) (sizes : Nat → Nat) (n : Nat) : BodyRead :=
  ((readerAfter stream sizes n).read (sizes n)).1

end Namros.Source
