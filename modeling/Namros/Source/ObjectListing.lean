import Namros.Source.ObjectVersions

/-!
# ListObjects

`ListObjects` and `listObjectsRange` of the repository. The list index is read in key order
in batches of `maxKeys + 1`; a name in which the delimiter follows the prefix is rolled up
into a common prefix, and the scan is resumed behind every key with that common prefix. A
page ends with the name of its last entry as continuation token, which the next call reads
as a common prefix when it ends with the delimiter and as a key otherwise.
-/

namespace Namros.Source

open Library Transaction

/-- `meta.ListObjectsRequest`. The texts come from a query string and need not be UTF-8. -/
structure ListObjectsRequest where
  bucketID : String := ""
  (keyPrefix delimiter continuationToken : Bytes := [])
  maxKeys : Int := 0
deriving DecidableEq

structure ListObjectsResult where
  contents : List ObjectHead := []
  commonPrefixes : List Bytes := []
  isTruncated : Bool := false
  nextContinuationToken : Bytes := []
deriving DecidableEq

structure ListEntry where
  name : Bytes
  isCommonPrefix : Bool := false
  head : ObjectHead := {}
deriving DecidableEq

/-- `strings.Index`: where `part` starts first in a text. -/
def indexOf (part : Bytes) : Bytes → Option Nat
  | [] => if part = [] then some 0 else none
  | c :: text =>
    if part.isPrefixOf (c :: text) then some 0 else (indexOf part text).map (· + 1)

/-- The common prefix a name with the prefix is rolled up into, if any. -/
def commonPrefixOf (keyPrefix delimiter name : Bytes) : Option Bytes :=
  if delimiter = [] then none
  else
    let rest := name.drop keyPrefix.length
    (indexOf delimiter rest).map fun index =>
      keyPrefix ++ rest.take (index + delimiter.length)

/-- `keyspace.ListObject` on any text. -/
def listObjectPath (bucketID : String) (name : Bytes) : Bytes :=
  below [bytes "buckets", esc bucketID, bytes "list"] (escape name)

def asObjectListEntry : (k : Key) → k.Value → Option ObjectListEntry
  | .listObject _ _, entry => some entry
  | _, _ => none

/-- What the closure of `listObjectsRange` collects. -/
structure ListProgress where
  entries : List ListEntry := []
  commonPrefixes : List Bytes := []
deriving DecidableEq

/-- How the loop over one batch of keys ends: with more entries than a page holds, at a
name that was rolled up, or at the end of the batch. -/
inductive BatchEnd
  | full
  | skipTo (start : Bytes)
  | scanned
deriving DecidableEq

def ListProgress.addCommonPrefix (progress : ListProgress) (name : Bytes) : ListProgress :=
  if name ∈ progress.commonPrefixes then progress
  else
    { entries := progress.entries ++ [{ name, isCommonPrefix := true }]
      commonPrefixes := name :: progress.commonPrefixes }

/-- The loop over one batch of keys. Its assignments to `cursor` are left out: each way out
of the loop overwrites them. -/
def collectObjects (req : ListObjectsRequest) (maxKeys : Nat) (s : Store) :
    List Key → ListProgress → ListProgress × BatchEnd
  | [], progress => (progress, .scanned)
  | key :: keys, progress =>
    match (s.lookup key).bind (asObjectListEntry key) with
    | none => collectObjects req maxKeys s keys progress
    | some entry =>
      let head := headFromListEntry entry
      let name := bytes head.key
      if ¬ req.keyPrefix.isPrefixOf name then collectObjects req maxKeys s keys progress
      else
        match commonPrefixOf req.keyPrefix req.delimiter name with
        | some commonPrefix =>
          (progress.addCommonPrefix commonPrefix,
            .skipTo (Bytes.prefixRangeEnd (listObjectPath req.bucketID commonPrefix)))
        | none =>
          let progress := { progress with entries := progress.entries ++ [{ name, head }] }
          if maxKeys < progress.entries.length then (progress, .full)
          else collectObjects req maxKeys s keys progress

/-- The outer loop of `listObjectsRange`, for at most `fuel` batches. -/
def listObjectsLoop (req : ListObjectsRequest) (maxKeys : Nat) (stop : Bytes) (s : Store) :
    Nat → Bytes → Bytes → ListProgress → Option ListProgress
  | 0, _, _, _ => none
  | fuel + 1, start, cursor, progress =>
    if maxKeys < progress.entries.length then some progress
    else
      let (keys, next) := OrderedStore.listRange keyCode start stop cursor (maxKeys + 1) [] s
      if keys = [] then some progress
      else
        match collectObjects req maxKeys s keys progress with
        | (progress, .full) => some progress
        | (progress, .skipTo skipTo) =>
          if skipTo ≠ [] then listObjectsLoop req maxKeys stop s fuel skipTo [] progress
          else if next = [] then some progress
          else listObjectsLoop req maxKeys stop s fuel start next progress
        | (progress, .scanned) =>
          if next = [] then some progress
          else listObjectsLoop req maxKeys stop s fuel start next progress

/-- Where a call starts: the range start and the cursor. -/
def listObjectsStart (req : ListObjectsRequest) : Bytes × Bytes :=
  let start := listObjectPath req.bucketID req.keyPrefix
  if req.continuationToken = [] then (start, [])
  else
    let tokenKey := listObjectPath req.bucketID req.continuationToken
    if req.delimiter ≠ [] ∧ req.delimiter.isSuffixOf req.continuationToken then
      (Bytes.prefixRangeEnd tokenKey, [])
    else (start, tokenKey)

/-- The closure of `listObjectsRange`, on top of what was collected before. Every batch
passes a stored key, so there are never more batches than the bound given here. -/
def listObjectsClosure (req : ListObjectsRequest) (maxKeys : Nat) (captured : ListProgress) :
    Tx ListProgress := do
  let bucket ← getJSON (.bucketByID req.bucketID)
  failIf (bucket = none) .notFound
  let s ← get
  let stop := Bytes.prefixRangeEnd (listObjectPath req.bucketID req.keyPrefix)
  let (start, cursor) := listObjectsStart req
  pure ((listObjectsLoop req maxKeys stop s (s.keys.length + 1) start cursor captured).getD
    captured)

/-- What `listObjectsRange` makes of the collected entries. -/
def listObjectsPage (maxKeys : Nat) (entries : List ListEntry) : ListObjectsResult :=
  let truncated := decide (maxKeys < entries.length)
  let listed := if truncated then entries.take maxKeys else entries
  { contents := (listed.filter (!·.isCommonPrefix)).map (·.head)
    commonPrefixes := (listed.filter (·.isCommonPrefix)).map (·.name)
    isTruncated := truncated
    nextContinuationToken :=
      if truncated then ((entries[maxKeys - 1]?).map (·.name)).getD [] else [] }

def listObjectsRange (req : ListObjectsRequest) (maxKeys : Nat) : Tx ListObjectsResult := do
  let progress ← listObjectsClosure req maxKeys {}
  pure (listObjectsPage maxKeys progress.entries)

def listObjects (req : ListObjectsRequest) : Tx ListObjectsResult := do
  failIf (req.bucketID = "") (.invalidArgument "bucket id is required")
  listObjectsRange req (if req.maxKeys ≤ 0 then 1000 else req.maxKeys.toNat)

/-- A client that follows the continuation tokens until a page is not truncated, for at most
`fuel` pages. -/
def followPages (s : Store) : Nat → ListObjectsRequest → Option (List ListObjectsResult)
  | 0, _ => none
  | fuel + 1, req =>
    match (listObjects req).run s with
    | .error _ => none
    | .ok (page, _) =>
      if page.isTruncated then
        (followPages s fuel { req with continuationToken := page.nextContinuationToken }).map
          (page :: ·)
      else some [page]

end Namros.Source
