import Namros.Library.RollupScan
import Namros.Source.Multipart
import Namros.Source.VersionListing

/-!
# ListMultipartUploads

`ListMultipartUploads` of the repository. The index of uploads by key is scanned in batches;
every entry leads to an upload record, and only active uploads under the prefix count. A page
that ends with an upload is resumed behind the pair of its key and its id, a page that ends
with a common prefix behind that prefix: the empty upload id marker tells the two apart.
-/

namespace Namros.Source

open Library Transaction

structure ListMultipartUploadsRequest where
  bucketID : String := ""
  (keyPrefix delimiter keyMarker uploadIDMarker : Bytes := [])
  maxUploads : Int := 0
deriving DecidableEq

structure ListMultipartUploadsResult where
  uploads : List MultipartUpload := []
  commonPrefixes : List Bytes := []
  isTruncated : Bool := false
  (nextKeyMarker nextUploadIDMarker : Bytes := [])
deriving DecidableEq

structure MultipartUploadEntry where
  name : Bytes
  uploadID : Bytes := []
  isCommonPrefix : Bool := false
  upload : MultipartUpload := {}
deriving DecidableEq

def multipartUploadListPrefix (bucketID : String) (name : Bytes) : Bytes :=
  below [bytes "buckets", esc bucketID, bytes "multipart-by-key"] (escape name)

/-- `keyspace.MultipartUploadByKey` on any texts. -/
def multipartUploadPath (bucketID : String) (key uploadID : Bytes) : Bytes :=
  below [bytes "buckets", esc bucketID, bytes "multipart-by-key", escape key] (escape uploadID)

/-- The record of an index key: the id of the upload. -/
def asUploadIndexRecord : (k : Key) → k.Value → Option String
  | .multipartUploadByKey _ _ _, uploadID => some uploadID
  | _, _ => none

/-- How the loop of `ListMultipartUploads` reads an index key: as nothing, as an upload, or as
a member of a common prefix. -/
def readUpload (req : ListMultipartUploadsRequest) (s : Store) (key : Key) :
    Option (MultipartUploadEntry ⊕ Bytes) :=
  match (s.lookup key).bind (asUploadIndexRecord key) with
  | none => none
  | some uploadID =>
    match (s.lookup (.multipartUpload req.bucketID uploadID) : Option MultipartUpload) with
    | none => none
    | some upload =>
      let name := bytes upload.key
      if upload.state ≠ .active ∨ ¬ req.keyPrefix.isPrefixOf name then none
      else
        match commonPrefixOf req.keyPrefix req.delimiter name with
        | some commonPrefix => some (.inr commonPrefix)
        | none => some (.inl { name, uploadID := bytes upload.uploadID, upload })

/-- The two loops of `ListMultipartUploads` on one store. The assignments to `cursor` inside
the inner loop are left out: each way out of that loop overwrites them. -/
def uploadScan (req : ListMultipartUploadsRequest) (s : Store) :
    RollupScan Key MultipartUploadEntry Bytes where
  classify := readUpload req s
  rolled name := { name, isCommonPrefix := true }
  stem := multipartUploadListPrefix req.bucketID

/-- Where a call starts: the range start and the cursor. -/
def listUploadsStart (req : ListMultipartUploadsRequest) : Bytes × Bytes :=
  let start := multipartUploadListPrefix req.bucketID req.keyPrefix
  if req.keyMarker = [] then (start, [])
  else if req.delimiter ≠ [] ∧ req.uploadIDMarker = [] ∧
      req.delimiter.isSuffixOf req.keyMarker then
    (maxBytes start (Bytes.prefixRangeEnd (multipartUploadListPrefix req.bucketID req.keyMarker)),
      [])
  else if req.uploadIDMarker ≠ [] then
    (maxBytes start (multipartUploadPath req.bucketID req.keyMarker []),
      multipartUploadPath req.bucketID req.keyMarker req.uploadIDMarker)
  else
    (maxBytes start (Bytes.prefixRangeEnd (multipartUploadPath req.bucketID req.keyMarker [])), [])

/-- The closure of `ListMultipartUploads`, on top of what was collected before. Every batch
passes a stored key, so there are never more batches than the bound given here. -/
def listMultipartUploadsClosure (req : ListMultipartUploadsRequest) (maxUploads : Nat)
    (captured : RollupScan.Progress MultipartUploadEntry Bytes) :
    Tx (RollupScan.Progress MultipartUploadEntry Bytes) := do
  let bucket ← getJSON (.bucketByID req.bucketID)
  failIf (bucket = none) .notFound
  let s ← get
  let stop := Bytes.prefixRangeEnd (multipartUploadListPrefix req.bucketID req.keyPrefix)
  let (start, cursor) := listUploadsStart req
  pure (((uploadScan req s).loop keyCode maxUploads stop s (s.keys.length + 1) start cursor
    captured).getD captured)

/-- What `ListMultipartUploads` makes of the collected entries. -/
def listUploadsPage (maxUploads : Nat) (entries : List MultipartUploadEntry) :
    ListMultipartUploadsResult :=
  let truncated := decide (maxUploads < entries.length)
  let listed := if truncated then entries.take maxUploads else entries
  { uploads := (listed.filter (!·.isCommonPrefix)).map (·.upload)
    commonPrefixes := (listed.filter (·.isCommonPrefix)).map (·.name)
    isTruncated := truncated
    nextKeyMarker := if truncated then ((entries[maxUploads - 1]?).map (·.name)).getD [] else []
    nextUploadIDMarker :=
      if truncated then ((entries[maxUploads - 1]?).map (·.uploadID)).getD [] else [] }

def listMultipartUploads (req : ListMultipartUploadsRequest) : Tx ListMultipartUploadsResult := do
  failIf (req.bucketID = "") (.invalidArgument "bucket id is required")
  let maxUploads := if req.maxUploads ≤ 0 then 1000 else req.maxUploads.toNat
  let progress ← listMultipartUploadsClosure req maxUploads {}
  pure (listUploadsPage maxUploads progress.entries)

/-- One page, and the request for the next one when the page is truncated. -/
def uploadPage (s : Store) (req : ListMultipartUploadsRequest) :
    Option (ListMultipartUploadsResult × Option ListMultipartUploadsRequest) :=
  match (listMultipartUploads req).run s with
  | .error _ => none
  | .ok (page, _) => some (page,
      if page.isTruncated then
        some { req with keyMarker := page.nextKeyMarker, uploadIDMarker := page.nextUploadIDMarker }
      else none)

/-- A client that follows the markers until a page is not truncated, for at most `fuel`
pages. -/
def followUploadPages (s : Store) (fuel : Nat) (req : ListMultipartUploadsRequest) :
    Option (List ListMultipartUploadsResult) :=
  followPagesWith (uploadPage s) fuel req

end Namros.Source
