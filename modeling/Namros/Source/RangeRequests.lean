import Namros.Library.Delimited
import Namros.Source.SegmentAddress

/-!
# GET requests with a range

`parseRange` and `getObject` of `internal/gateway/s3_handlers.go:2478-2543` and `1614-1659`. The
admission checks of the handler (the key state, the data budget, the audit record) are
parameters; a response is its status, its `Content-Range` and `Content-Length` and its body.
-/

namespace Namros.Source

open Library

structure ByteRange where
  (offset readLength contentLength : UInt64 := 0)
  contentRange : String := ""
  status : Nat := 0
deriving DecidableEq

/-- The range from `start` to `last`. -/
def byteRange (start last size : UInt64) : ByteRange :=
  let length := last - start + 1
  { offset := start
    readLength := length
    contentLength := length
    contentRange := "bytes " ++ toString start.toNat ++ "-" ++ toString last.toNat ++ "/" ++
      toString size.toNat
    status := 206 }

/-- `parseRange` for a nonempty object, from the texts before and after the first hyphen. -/
def parseRangeParts (startText endText : List Char) (size : UInt64) : Except String ByteRange :=
  if startText = [] then
    match parseUint 64 endText with
    | none => .error "invalid suffix range"
    | some suffix =>
      let suffix := UInt64.ofNat suffix
      if suffix = 0 then .error "invalid suffix range"
      else .ok (byteRange (size - if suffix > size then size else suffix) (size - 1) size)
  else if endText = [] then
    match parseUint 64 startText with
    | none => .error "range is not satisfiable"
    | some start =>
      let start := UInt64.ofNat start
      if start ≥ size then .error "range is not satisfiable"
      else .ok (byteRange start (size - 1) size)
  else
    match parseUint 64 startText, parseUint 64 endText with
    | none, _ => .error "invalid range start"
    | some _, none => .error "range is not satisfiable"
    | some start, some last =>
      let start := UInt64.ofNat start
      let last := UInt64.ofNat last
      if start > last ∨ start ≥ size then .error "range is not satisfiable"
      else .ok (byteRange start (if last ≥ size then size - 1 else last) size)

def parseRange (header : String) (size : UInt64) : Except String ByteRange :=
  let value := header.toList.drop "bytes=".length
  if header = "" then .ok { contentLength := size, status := 200 }
  else if ¬ "bytes=".toList <+: header.toList ∨ ',' ∈ value then
    .error "only a single bytes range is supported"
  else
    match Delimited.cutAt '-' value with
    | none => .error "invalid bytes range"
    | some (startText, endText) =>
      if size = 0 then .error "range is not satisfiable"
      else parseRangeParts startText endText size

/-- What `getObject` answers with instead of content. -/
inductive GetObjectError
  /-- `NoSuchKey`. -/
  | deleteMarker
  | accessDenied (text : String)
  | invalidRange (text : String)
  /-- `SlowDown`: the data budget is used up. -/
  | slowDown
  /-- `objectError`. -/
  | storage (e : StorageError)
  /-- `ServiceUnavailable`. -/
  | auditUnavailable (text : String)
deriving DecidableEq

inductive GetObjectResponse
  | failed (e : GetObjectError)
  | content (status : Nat) (contentRange : String) (contentLength : UInt64) (body : List UInt8)
deriving DecidableEq

/-- What the handler depends on. -/
structure GetObjectDeps (σ : Type) where
  store : SegmentStore σ
  encryption : Option DecryptSegment := none
  /-- `checkDecryptAdmission` for an object with a key. -/
  decryptAdmission : ServerSideEncryption → Option String := fun _ => none
  /-- `reserveDataBudget`. -/
  reserveDataBudget : UInt64 → Bool := fun _ => true
  /-- The error of `recordAccessAudit`. -/
  recordAccessAudit : Option String := none

def GetObjectDeps.checkDecryptAdmission {σ : Type} (deps : GetObjectDeps σ)
    (encryption : ServerSideEncryption) : Option String :=
  if encryption.algorithm ≠ .awsKMS then none else deps.decryptAdmission encryption

/-- `getObject` for the head it has read. -/
def getObject {σ : Type} (deps : GetObjectDeps σ) (head : ObjectHead) (header : String) (g : σ) :
    GetObjectResponse :=
  if head.deleteMarker then .failed .deleteMarker
  else
    match deps.checkDecryptAdmission head.serverSideEncryption with
    | some text => .failed (.accessDenied text)
    | none =>
      match parseRange header (UInt64.ofInt head.sizeBytes) with
      | .error text => .failed (.invalidRange text)
      | .ok range =>
        if deps.reserveDataBudget range.contentLength = false then .failed .slowDown
        else
          match openObjectReaders deps.store deps.encryption head range.offset range.contentLength
            g with
          | .error e => .failed (.storage e)
          | .ok readers =>
            match deps.recordAccessAudit with
            | some text => .failed (.auditUnavailable text)
            | none =>
              .content range.status range.contentRange range.contentLength
                (readers.flatMap SegmentReader.content)

end Namros.Source
