import Namros.Source.Audit

/-!
# Presigned requests

`parsePresignedQuery` of `auth/sigv4/parse.go:63-96` and `verifyPresigned` of
`auth/sigv4/verifier.go:118-153`. An `int` and a `time.Duration` have 64 bits, and a duration
counts nanoseconds.
-/

namespace Namros.Source

/-- The sentinels of the package, with the text that follows each. -/
inductive SigV4Error
  | accessDenied (text : String)
  | signatureDoesNotMatch (text : String)
  | invalidRequest (text : String)
  | requestTimeTooSkewed (text : String)
  | expiredPresign (text : String)
deriving DecidableEq

structure CredentialScope where
  (accessKeyID date region service terminator : String)
deriving DecidableEq

/-- `url.Values.Get` on a map from names to values. -/
def queryGet (values : List (String × List String)) (key : String) : String :=
  ((values.lookup key).getD []).headD ""

def parseCredentialScope (value : String) : Except SigV4Error CredentialScope :=
  match (value.toList.splitOn '/').map String.ofList with
  | [accessKeyID, date, region, service, terminator] =>
    if accessKeyID = "" then .error (.invalidRequest "malformed credential scope")
    else .ok ⟨accessKeyID, date, region, service, terminator⟩
  | _ => .error (.invalidRequest "malformed credential scope")

/-- `time.Duration(n) * time.Second`. -/
def durationOfSeconds (n : Int) : Int := (n * 10 ^ 9).bmod (2 ^ 64)

def maxPresignExpiry : Int := 7 * 24 * 3600 * 10 ^ 9

/-- What `parsePresignedQuery` returns. -/
structure PresignedQuery where
  scope : CredentialScope
  signedHeaders : List String
  signature : String
  expires : Int
deriving DecidableEq

def parsePresignedQuery (values : List (String × List String)) :
    Except SigV4Error PresignedQuery :=
  if queryGet values "X-Amz-Algorithm" ≠ "AWS4-HMAC-SHA256" then
    .error (.invalidRequest "unsupported presign algorithm")
  else do
    let scope ← parseCredentialScope (queryGet values "X-Amz-Credential")
    let signedHeadersText := queryGet values "X-Amz-SignedHeaders"
    let signature := queryGet values "X-Amz-Signature"
    if signedHeadersText = "" ∨ signature = "" then
      .error (.invalidRequest "presigned URL is missing signed headers or signature")
    else
      -- a text that is no integer fails as one that is not positive
      let expiresSeconds := (atoi (queryGet values "X-Amz-Expires")).getD 0
      if expiresSeconds ≤ 0 then .error (.invalidRequest "invalid presign expiry")
      else
        let expires := durationOfSeconds expiresSeconds
        if maxPresignExpiry < expires then
          .error (.invalidRequest "presign expiry exceeds seven days")
        else
          .ok ⟨scope, (signedHeadersText.toList.splitOn ';').map String.ofList, signature, expires⟩

def isHexSignature (value : String) : Bool :=
  value.utf8ByteSize == 64 && value.toList.all ("0123456789abcdefABCDEF".toList.contains ·)

structure SignatureInput where
  scope : CredentialScope
  signedHeaders : List String
  signature : String
  requestTime : Time
  payloadHash : String
  (excludeSignature presigned : Bool)

/-- The verifier, with `time.Parse` for the layout of `X-Amz-Date`, `Time.Format("20060102")` and,
for one request, `verifySignature`. -/
structure Verifier (ρ : Type) where
  region : String
  maxSkew : Int
  parseTime : String → Option Time
  formatDate : Time → String
  verifySignature : SignatureInput → Except SigV4Error ρ

variable {ρ : Type}

def Verifier.parseAMZDate (v : Verifier ρ) (value : String) : Except SigV4Error Time :=
  if value = "" then .error (.accessDenied "X-Amz-Date is required")
  else (v.parseTime value).elim (.error (.invalidRequest "invalid X-Amz-Date")) .ok

def Verifier.verifyPresigned (v : Verifier ρ) (values : List (String × List String))
    (now : Time) : Except SigV4Error ρ := do
  let query ← parsePresignedQuery values
  let scope := query.scope
  if scope.date = "" ∨ scope.region ≠ v.region ∨ scope.service ≠ "s3" ∨
      scope.terminator ≠ "aws4_request" then
    .error (.signatureDoesNotMatch "credential scope does not match this endpoint")
  else if ¬ isHexSignature query.signature then .error (.invalidRequest "malformed signature")
  else do
    let requestTime ← v.parseAMZDate (queryGet values "X-Amz-Date")
    if scope.date ≠ v.formatDate requestTime then
      .error (.signatureDoesNotMatch "credential date does not match X-Amz-Date")
    else if now < requestTime - v.maxSkew then
      .error (.requestTimeTooSkewed "request time is in the future")
    else if requestTime + query.expires < now then
      .error (.expiredPresign "presigned URL expired")
    else
      let payload := queryGet values "X-Amz-Content-Sha256"
      v.verifySignature
        { scope, signedHeaders := query.signedHeaders, signature := query.signature, requestTime,
          payloadHash := if payload = "" then "UNSIGNED-PAYLOAD" else payload,
          excludeSignature := true, presigned := true }

end Namros.Source
