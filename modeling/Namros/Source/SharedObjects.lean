import Namros.Source.ObjectUpdates

/-!
# Reference rewrites and dedupe attachment

`PublishSharedObject`, `AttachObjectVersionToSharedObject` and `PublishObjectVersionRefs`
(`repository.go:3164-3441`) with the shared-object helpers of `repository.go:5511-5640` and
the volume test of `internal/meta/volume_drain.go`.
-/

namespace Namros.Source

open Library Transaction

structure PublishSharedObjectRequest where
  (bucketID key versionID : String := "")
deriving DecidableEq

structure AttachRequest where
  (sharedObjectID bucketID key versionID : String := "")
deriving DecidableEq

structure PublishObjectVersionRefsRequest where
  (bucketID key versionID expectedSourceVolumeID : String := "")
  segmentRefs : List SegmentRef := []
deriving DecidableEq

/-- `model.AttachSharedObjectResult`. -/
structure AttachResult where
  version : ObjectVersion := {}
  sharedObject : SharedObject := {}
  ref : SharedObjectRef := {}
  previousSegmentRefs : List SegmentRef := []
deriving DecidableEq

/-- `meta.PublishObjectVersionRefsResult`. -/
structure PublishRefsResult where
  version : ObjectVersion := {}
  previousSegmentRefs : List SegmentRef := []
deriving DecidableEq

def objectVersionDigest (version : ObjectVersion) : Option Digest :=
  if version.segmentRef.digest.algorithm ≠ "" ∧ version.segmentRef.digest.hex ≠ "" then
    some version.segmentRef.digest
  else match version.segmentRefs with
    | [ref] => if ref.digest.algorithm ≠ "" ∧ ref.digest.hex ≠ "" then some ref.digest else none
    | _ => none

/-- The first sixteen bytes of a digest in hexadecimal. -/
def shortHex (hex : String) : String := String.ofList (hex.toList.take 32)

def sharedObjectID (platform : Platform) (tenantID bucketID key : String) (digest : Digest)
    (sizeBytes : Int) : String :=
  "so-" ++ shortHex (platform.sha256Hex (bytes tenantID ++ 0 :: bytes bucketID ++ 0 ::
    bytes key ++ 0 :: bytes (platform.toLower digest.algorithm) ++ 0 ::
    bytes (platform.toLower digest.hex) ++ 0 :: bytes (toString sizeBytes)))

def sharedObjectRefID (platform : Platform) (sharedObjectID bucketID key versionID : String) :
    String :=
  "soref-" ++ shortHex (platform.sha256Hex (bytes sharedObjectID ++ 0 :: bytes bucketID ++ 0 ::
    bytes key ++ 0 :: bytes versionID))

def sharedObjectRefFromVersion (platform : Platform) (shared : SharedObject)
    (version : ObjectVersion) (now : Time) : SharedObjectRef :=
  { refID := sharedObjectRefID platform shared.sharedObjectID version.bucketID version.key
      version.versionID
    sharedObjectID := shared.sharedObjectID
    bucketID := version.bucketID
    key := version.key
    versionID := version.versionID
    segmentRefs := shared.segmentRefs
    createdAt := now
    updatedAt := now }

def objectVersionMatchesSharedObject (platform : Platform) (version : ObjectVersion)
    (shared : SharedObject) : Bool :=
  version.sizeBytes == shared.sizeBytes &&
    match objectVersionDigest version with
    | none => false
    | some digest => platform.equalFold digest.algorithm shared.digest.algorithm &&
        platform.equalFold digest.hex shared.digest.hex

/-- The protected references among scanned keys. -/
def asProtectedRef : (k : Key) → k.Value → Option ProtectedRef
  | .protectedRefByVersion _ _ _ _, ref => some ref
  | .protectedRefBySegment _ _, ref => some ref
  | _, _ => none

/-- `protectedRefSegmentPrefix` of a segment. -/
def protectedRefSegmentPrefix (segmentID : String) : Bytes :=
  (Key.protectedRefBySegment segmentID "").encode

/-- The protected references of a segment; none for an empty segment id. -/
def protectedRefsOfSegment (segmentID : String) : Tx (List (Key × ProtectedRef)) :=
  if segmentID = "" then pure []
  else scanRecords asProtectedRef (protectedRefSegmentPrefix segmentID)

/-- The active reference ids of `segmentRefs`, each once: `sharedObjectProtectedRootCount`. -/
def protectedRootIDs (now : Time) : List SegmentRef → Tx (List String)
  | [] => pure []
  | segmentRef :: rest => do
    let found ← protectedRefsOfSegment segmentRef.segmentID
    let others ← protectedRootIDs now rest
    let active := (found.map Prod.snd).filter (protectedRefActive · now)
    pure ((active.map ProtectedRef.refID ++ others).dedup)

def sharedObjectProtectedRootCount (shared : SharedObject) (now : Time) : Tx Int := do
  let ids ← protectedRootIDs now shared.segmentRefs
  pure ids.length

def sharedObjectFromVersion (platform : Platform) (bucket : Bucket) (version : ObjectVersion)
    (now : Time) : Except Error SharedObject :=
  let refs := version.allSegmentRefs
  if refs = [] then .error (.invalidArgument "source version has no segment refs")
  else match objectVersionDigest version with
    | none => .error (.invalidArgument "source version has no stable object digest")
    | some digest =>
      let id := sharedObjectID platform bucket.tenantID version.bucketID version.key digest
        version.sizeBytes
      .ok { sharedObjectID := id, tenantID := bucket.tenantID, bucketID := version.bucketID,
            key := version.key, sourceVersionID := version.versionID,
            sizeBytes := version.sizeBytes, digest := digest,
            storageClass := version.storageClass,
            segmentRefs := refs.map fun ref => { ref with sharedObjectID := id },
            refCount := 1, protectedRootCount := 0, createdAt := now, updatedAt := now }

/-- The live version a reference operation works on. -/
def requireLiveVersion (bucketID : String) (key : GoString) (versionID : String) :
    Tx ObjectVersion := do
  let found ← findVersionByID bucketID key versionID
  let (_, version) ← orFail found .notFound
  failIf (version.state ≠ .committed ∨ version.deleteMarker) .notFound
  pure version

/-- The writes of `PublishSharedObject`: an existing shared object keeps its segments. -/
def recordSharedObject (platform : Platform) (next : SharedObject) (version : ObjectVersion)
    (now : Time) : Tx SharedObject := do
  let existing ← getJSON (.sharedObject next.sharedObjectID)
  match existing with
  | some existing => do
    let count ← sharedObjectProtectedRootCount existing now
    let existing := { existing with protectedRootCount := count, updatedAt := now }
    setJSON (.sharedObject existing.sharedObjectID) existing
    let ref := sharedObjectRefFromVersion platform existing version now
    let found ← getJSON (.sharedObjectRef ref.sharedObjectID ref.bucketID ref.key ref.versionID)
    match found with
    | some _ => pure existing
    | none => do
      setJSON (.sharedObjectRef ref.sharedObjectID ref.bucketID ref.key ref.versionID) ref
      pure existing
  | none => do
    setJSON (.sharedObject next.sharedObjectID) next
    let ref := sharedObjectRefFromVersion platform next version next.createdAt
    setJSON (.sharedObjectRef ref.sharedObjectID ref.bucketID ref.key ref.versionID) ref
    pure next

def publishSharedObject (platform : Platform) (context : CallContext)
    (req : PublishSharedObjectRequest) (path : GoString := req.key) : Tx SharedObject := do
  failIf (req.bucketID = "" ∨ req.key = "" ∨ req.versionID = "")
    (.invalidArgument "bucket id, key, and version id are required")
  let bucket ← requireBucket req.bucketID
  let version ← requireLiveVersion req.bucketID path req.versionID
  let now := context.now 0
  let next ← ofOutcome (sharedObjectFromVersion platform bucket version now)
  let count ← sharedObjectProtectedRootCount next now
  recordSharedObject platform { next with protectedRootCount := count } version now

def attachObjectVersionToSharedObject (platform : Platform) (context : CallContext)
    (req : AttachRequest) (path : GoString := req.key) : Tx AttachResult := do
  failIf (req.sharedObjectID = "" ∨ req.bucketID = "" ∨ req.key = "" ∨ req.versionID = "")
    (.invalidArgument "shared object id, bucket id, key, and version id are required")
  let shared ← getJSON (.sharedObject req.sharedObjectID)
  let shared ← orFail shared .notFound
  failIf (shared.bucketID ≠ req.bucketID ∨ shared.key ≠ path)
    (.invalidArgument "shared object scope mismatch")
  let version ← requireLiveVersion req.bucketID path req.versionID
  let now := context.now 0
  failIf (version.protectedByObjectLock now false) .objectLocked
  failIf (¬ objectVersionMatchesSharedObject platform version shared)
    (.invalidArgument "object version does not match shared object digest/size")
  let previousRefs := version.allSegmentRefs
  let version := { version with
    segmentRefs := shared.segmentRefs
    segmentRef := firstSegmentRef shared.segmentRefs
    storageClass := shared.storageClass }
  let ref := sharedObjectRefFromVersion platform shared version now
  let counted ← getJSON (.sharedObjectRef ref.sharedObjectID ref.bucketID ref.key ref.versionID)
  let shared := if counted.isSome then shared else { shared with refCount := shared.refCount + 1 }
  let count ← sharedObjectProtectedRootCount shared now
  let shared := { shared with protectedRootCount := count, updatedAt := now }
  setObjectVersion platform version
  setJSON (.sharedObject shared.sharedObjectID) shared
  setJSON (.sharedObjectRef ref.sharedObjectID ref.bucketID ref.key ref.versionID) ref
  updateHeadOf req.bucketID path version.versionID fun head => { head with
    segmentRefs := version.segmentRefs
    segmentRef := version.segmentRef
    storageClass := version.storageClass
    lastModified := now }
  pure { version := version, sharedObject := shared, ref := ref,
         previousSegmentRefs := previousRefs }

def segmentRefVolumeID (ref : SegmentRef) : String :=
  let named := trimSpace ((ref.placement.parameters.lookup "volume_id").getD "")
  if named ≠ "" then named
  else ((ref.placement.chunks.map fun chunk => trimSpace chunk.volumeID).find? (· ≠ "")).getD ""

def segmentRefsContainVolume (refs : List SegmentRef) (volumeID : String) : Bool :=
  trimSpace volumeID = "" || refs.any fun ref => segmentRefVolumeID ref = trimSpace volumeID

def publishObjectVersionRefs (platform : Platform) (context : CallContext)
    (req : PublishObjectVersionRefsRequest) (path : GoString := req.key) :
    Tx PublishRefsResult := do
  failIf (req.bucketID = "" ∨ req.key = "" ∨ req.versionID = "")
    (.invalidArgument "bucket id, key, and version id are required")
  failIf (req.segmentRefs = []) (.invalidArgument "replacement segment refs are required")
  let version ← requireLiveVersion req.bucketID path req.versionID
  failIf (version.protectedByObjectLock (context.now 0) false) .objectLocked
  let previousRefs := version.allSegmentRefs
  failIf (¬ segmentRefsContainVolume previousRefs req.expectedSourceVolumeID)
    (.invalidArgument ("object version has no refs on source volume " ++
      quoted req.expectedSourceVolumeID))
  let version := { version with
    segmentRefs := req.segmentRefs
    segmentRef := firstSegmentRef req.segmentRefs }
  setObjectVersion platform version
  updateHeadOf req.bucketID path version.versionID fun head => { head with
    segmentRefs := version.segmentRefs
    segmentRef := version.segmentRef }
  pure { version := version, previousSegmentRefs := previousRefs }

end Namros.Source
