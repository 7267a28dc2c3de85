import Namros.Library.SortSearch
import Namros.Source.ObjectListing

/-!
# ListObjectVersions

`ListObjectVersions` of the repository with `collectVersionEntriesForKey`,
`sortVersionEntries` and `versionEntriesAfter`. The objects are met in key order, each with
all its committed versions, newest first. A call that resumes inside the versions of one
object looks the marker up with `sort.Search` and goes on behind it.
-/

namespace Namros.Source

open Library Transaction

structure ListObjectVersionsRequest where
  bucketID : String := ""
  (keyPrefix delimiter keyMarker versionIDMarker : Bytes := [])
  maxKeys : Int := 0
deriving DecidableEq

structure ObjectVersionEntry where
  version : ObjectVersion
  isLatest : Bool
deriving DecidableEq

structure ListObjectVersionsResult where
  (versions deleteMarkers : List ObjectVersionEntry := [])
  commonPrefixes : List Bytes := []
  isTruncated : Bool := false
  (nextKeyMarker nextVersionIDMarker : Bytes := [])
deriving DecidableEq

structure VersionListEntry where
  name : Bytes
  (versionID sortKey : Bytes := [])
  (isCommonPrefix isLatest : Bool := false)
  version : ObjectVersion := {}
deriving DecidableEq

def versionListPrefix (bucketID : String) (name : Bytes) : Bytes :=
  below [bytes "buckets", esc bucketID, bytes "versions"] (escape name)

/-- `versionPrefix` on any text. -/
def versionPath (bucketID : String) (name : Bytes) : Bytes :=
  below [bytes "buckets", esc bucketID, bytes "versions", escape name] []

/-- `maxString`. -/
def maxBytes (left right : Bytes) : Bytes := if left < right then right else left

/-- The order of `sortVersionEntries`. -/
def versionEntryLess (a b : VersionListEntry) : Bool :=
  if a.name = b.name then
    if a.isCommonPrefix ≠ b.isCommonPrefix then a.isCommonPrefix else decide (b.sortKey < a.sortKey)
  else decide (a.name < b.name)

/-- `sortVersionEntries`. `sort.Slice` may reorder equal entries, but the versions of one
object have different sort keys. -/
def sortVersionEntries (entries : List VersionListEntry) : List VersionListEntry :=
  entries.insertionSort fun a b => versionEntryLess b a = false

/-- The list entry of a version of the object whose head is given. -/
def versionListEntry (head : Option ObjectHead) (version : ObjectVersion) : VersionListEntry :=
  { name := bytes version.key
    versionID := bytes version.versionID
    sortKey := bytes version.versionSortKey
    isLatest := head.any fun head => head.versionID = version.versionID
    version := version }

/-- The hydrated committed versions among scanned records. -/
def committedVersions (s : Store) : List (Key × ObjectVersion) → Except Error (List ObjectVersion)
  | [] => .ok []
  | (_, version) :: rest =>
    if version.state ≠ .committed then committedVersions s rest
    else do
      let version ← hydrateWith (chunksOf s version) version
      let versions ← committedVersions s rest
      .ok (version :: versions)

/-- `collectVersionEntriesForKey`. Its batches of `ListRange` are those of a scan. -/
def collectVersionEntriesForKey (bucketID : String) (objectKey : Bytes) :
    Tx (List VersionListEntry) := do
  let key := GoString.ofBytes objectKey
  let records ← scanRecords asObjectVersion (versionPrefix bucketID key)
  let s ← get
  let versions ← ofOutcome (committedVersions s records)
  let head ← getObjectHead bucketID key
  pure (sortVersionEntries (versions.map (versionListEntry head)))

/-- The predicate that `versionEntriesAfter` searches with. -/
def afterMarker (entries : List VersionListEntry) (keyMarker versionIDMarker : Bytes)
    (i : Nat) : Bool :=
  match entries[i]? with
  | none => false
  | some entry =>
    if entry.name ≠ keyMarker then decide (keyMarker < entry.name)
    else if versionIDMarker = [] then decide (keyMarker < entry.name)
    else decide (entry.versionID = versionIDMarker)

def versionEntriesAfter (entries : List VersionListEntry) (keyMarker versionIDMarker : Bytes) :
    List VersionListEntry :=
  let index := sortSearch entries.length (afterMarker entries keyMarker versionIDMarker)
  let index :=
    if (entries[index]?).any fun entry =>
        decide (entry.name = keyMarker) && decide (entry.versionID = versionIDMarker)
    then index + 1 else index
  entries.drop index

/-- What the closure of `ListObjectVersions` collects. -/
structure VersionProgress where
  entries : List VersionListEntry := []
  commonPrefixes : List Bytes := []
deriving DecidableEq

def VersionProgress.addCommonPrefix (progress : VersionProgress) (name : Bytes) :
    VersionProgress :=
  if name ∈ progress.commonPrefixes then progress
  else
    { entries := progress.entries ++ [{ name, isCommonPrefix := true }]
      commonPrefixes := name :: progress.commonPrefixes }

def firstVersionFromKeys (s : Store) : List Key → Option ObjectVersion
  | [] => none
  | key :: keys =>
    match (s.lookup key).bind (asObjectVersion key) with
    | some version => some version
    | none => firstVersionFromKeys s keys

/-- The loop of `ListObjectVersions`, for at most `fuel` rounds. -/
def listVersionsLoop (req : ListObjectVersionsRequest) (maxKeys : Nat) (stop : Bytes) :
    Nat → Bytes → VersionProgress → Tx (Option VersionProgress)
  | 0, _, _ => pure none
  | fuel + 1, start, progress => do
    let s ← get
    let keys := (OrderedStore.listRange keyCode start stop [] 1 [] s).1
    if maxKeys < progress.entries.length ∨ keys = [] then pure (some progress)
    else
      match firstVersionFromKeys s keys with
      | none => listVersionsLoop req maxKeys stop fuel (Bytes.prefixRangeEnd start) progress
      | some version =>
        let objectKey := bytes version.key
        let exactObjectPrefix := versionPath req.bucketID objectKey
        if ¬ req.keyPrefix.isPrefixOf objectKey then
          listVersionsLoop req maxKeys stop fuel (Bytes.prefixRangeEnd exactObjectPrefix) progress
        else
          match commonPrefixOf req.keyPrefix req.delimiter objectKey with
          | some commonPrefix =>
            listVersionsLoop req maxKeys stop fuel
              (Bytes.prefixRangeEnd (versionListPrefix req.bucketID commonPrefix))
              (progress.addCommonPrefix commonPrefix)
          | none => do
            let objectEntries ← collectVersionEntriesForKey req.bucketID objectKey
            listVersionsLoop req maxKeys stop fuel (Bytes.prefixRangeEnd exactObjectPrefix)
              { progress with entries := progress.entries ++ objectEntries }

/-- A marker that stands for a common prefix. -/
def ListObjectVersionsRequest.closesMarker (req : ListObjectVersionsRequest) : Prop :=
  req.delimiter ≠ [] ∧ req.versionIDMarker = [] ∧ req.delimiter.isSuffixOf req.keyMarker
deriving Decidable

/-- The entries of the marker's object that come after the marker. -/
def markerEntries (req : ListObjectVersionsRequest) : Tx (List VersionListEntry) :=
  let start := versionListPrefix req.bucketID req.keyPrefix
  let stop := Bytes.prefixRangeEnd start
  let exactMarkerPrefix := versionPath req.bucketID req.keyMarker
  if req.keyMarker = [] ∨ req.closesMarker ∨ req.versionIDMarker = [] then pure []
  else if start ≤ exactMarkerPrefix ∧ (stop = [] ∨ exactMarkerPrefix < stop) then do
    let entries ← collectVersionEntriesForKey req.bucketID req.keyMarker
    pure (versionEntriesAfter entries req.keyMarker req.versionIDMarker)
  else pure []

/-- Where the loop of a call starts. -/
def listVersionsStart (req : ListObjectVersionsRequest) : Bytes :=
  let start := versionListPrefix req.bucketID req.keyPrefix
  if req.keyMarker = [] then start
  else if req.closesMarker then
    maxBytes start (Bytes.prefixRangeEnd (versionListPrefix req.bucketID req.keyMarker))
  else maxBytes start (Bytes.prefixRangeEnd (versionPath req.bucketID req.keyMarker))

/-- The closure of `ListObjectVersions`, on top of what was collected before. Where versions
are stored under their own keys every round passes a stored key, and there are never more
rounds than the bound given here. -/
def listObjectVersionsClosure (req : ListObjectVersionsRequest) (maxKeys : Nat)
    (captured : VersionProgress) : Tx VersionProgress := do
  let bucket ← getJSON (.bucketByID req.bucketID)
  failIf (bucket = none) .notFound
  let entries ← markerEntries req
  let progress := { captured with entries := captured.entries ++ entries }
  let s ← get
  let stop := Bytes.prefixRangeEnd (versionListPrefix req.bucketID req.keyPrefix)
  let final ← listVersionsLoop req maxKeys stop (s.keys.length + 1) (listVersionsStart req) progress
  pure (final.getD progress)

/-- What `ListObjectVersions` makes of the collected entries. -/
def listVersionsPage (maxKeys : Nat) (entries : List VersionListEntry) :
    ListObjectVersionsResult :=
  let truncated := decide (maxKeys < entries.length)
  let listed := if truncated then entries.take maxKeys else entries
  let shown := (listed.filter (!·.isCommonPrefix)).map fun entry =>
    { version := entry.version, isLatest := entry.isLatest : ObjectVersionEntry }
  { versions := shown.filter (!·.version.deleteMarker)
    deleteMarkers := shown.filter (·.version.deleteMarker)
    commonPrefixes := (listed.filter (·.isCommonPrefix)).map (·.name)
    isTruncated := truncated
    nextKeyMarker := if truncated then ((entries[maxKeys - 1]?).map (·.name)).getD [] else []
    nextVersionIDMarker :=
      if truncated then ((entries[maxKeys - 1]?).map (·.versionID)).getD [] else [] }

def listObjectVersions (req : ListObjectVersionsRequest) : Tx ListObjectVersionsResult := do
  failIf (req.bucketID = "") (.invalidArgument "bucket id is required")
  let maxKeys := if req.maxKeys ≤ 0 then 1000 else req.maxKeys.toNat
  let progress ← listObjectVersionsClosure req maxKeys {}
  pure (listVersionsPage maxKeys progress.entries)

/-- A client that follows the markers until a page is not truncated, for at most `fuel`
pages. -/
def followVersionPages (s : Store) :
    Nat → ListObjectVersionsRequest → Option (List ListObjectVersionsResult)
  | 0, _ => none
  | fuel + 1, req =>
    match (listObjectVersions req).run s with
    | .error _ => none
    | .ok (page, _) =>
      if page.isTruncated then
        (followVersionPages s fuel { req with
          keyMarker := page.nextKeyMarker, versionIDMarker := page.nextVersionIDMarker }).map
            (page :: ·)
      else some [page]

end Namros.Source
