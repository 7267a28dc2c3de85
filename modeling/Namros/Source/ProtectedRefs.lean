import Namros.Source.ObjectLock
import Namros.Source.ObjectVersions

/-!
# Protected references

The index of segments that object lock protects (`repository.go:4404-4453` and
`5944-5990`): one reference per segment of a protected version, stored once under the
version and once under the segment.
-/

namespace Namros.Source

open Library Transaction

/-- `protectedRefID`: bucket, key, version and segment joined by zero bytes, hashed. -/
def protectedRefID (platform : Platform) (version : ObjectVersion) (segmentRef : SegmentRef)
    (path : GoString := version.key) : String :=
  platform.sha256Hex (bytes version.bucketID ++ 0 :: path.bytes ++ 0 ::
    bytes version.versionID ++ 0 :: bytes segmentRef.segmentID)

def protectedRefFromVersion (platform : Platform) (version : ObjectVersion)
    (segmentRef : SegmentRef) (now : Time) (path : GoString := version.key) : ProtectedRef :=
  { refID := protectedRefID platform version segmentRef path
    reason := .objectLock
    bucketID := version.bucketID
    key := version.key
    versionID := version.versionID
    segmentID := segmentRef.segmentID
    segmentRef := segmentRef
    retentionMode := version.objectLockRetention.mode
    retainUntilDate := version.objectLockRetention.retainUntilDate
    legalHold := version.objectLockLegalHold
    createdAt := now
    updatedAt := now }

def protectedRefActive (ref : ProtectedRef) (now : Time) : Bool :=
  if ref.legalHold = .on then true
  else if ref.retentionMode = .none then false
  else if ref.retainUntilDate.isZero then true
  else decide (now < ref.retainUntilDate)

/-- One step of `deleteProtectedRefsForVersion`: the reference under the segment, then the
listed key. -/
def deleteProtectedRef (versionKey : Key) (s : Store) : Store :=
  match versionKey with
  | .protectedRefByVersion bucketID key versionID refID =>
    match s.lookup (.protectedRefByVersion bucketID key versionID refID) with
    | some ref => (s.erase (.protectedRefBySegment ref.segmentID ref.refID)).erase
        (.protectedRefByVersion bucketID key versionID refID)
    | none => s.erase (.protectedRefByVersion bucketID key versionID refID)
  | other => s.erase other

/-- `deleteProtectedRefsForVersion`, in pages of 1000. -/
def deleteProtectedRefsForVersion (bucketID : String) (key : GoString) (versionID : String) :
    Tx Unit := fun s =>
  .ok ((), OrderedStore.visitAll keyCode deleteProtectedRef
    (protectedRefVersionPrefix bucketID key versionID) 1000 s)

/-- The write loop of `syncProtectedRefsForVersion`. -/
def setProtectedRefs (platform : Platform) (version : ObjectVersion) (now : Time)
    (path : GoString) : List SegmentRef → Tx Unit
  | [] => pure ()
  | segmentRef :: rest => do
    onlyIf (segmentRef.segmentID ≠ "") do
      let ref := protectedRefFromVersion platform version segmentRef now path
      setJSON (.protectedRefByVersion ref.bucketID path ref.versionID ref.refID) ref
      setJSON (.protectedRefBySegment ref.segmentID ref.refID) ref
    setProtectedRefs platform version now path rest

def syncProtectedRefsForVersion (platform : Platform) (version : ObjectVersion) (now : Time)
    (path : GoString := version.key) : Tx Unit := do
  deleteProtectedRefsForVersion version.bucketID path version.versionID
  onlyIf (version.protectedByObjectLock now false)
    (setProtectedRefs platform version now path version.allSegmentRefs)

end Namros.Source
