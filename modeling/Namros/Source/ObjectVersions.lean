import Namros.Source.Repository

/-!
# Stored object versions and heads

How the repository stores one version (`internal/meta/scale.go`, `setObjectVersion`,
`deleteObjectVersionRecord`), finds it again (`findVersionByID`, the manifest
hydration), and how heads and list entries derive from it (`repository.go:4698-4840` and
`6033-6256`). A version whose JSON exceeds the value budget keeps its segment references
in numbered manifest chunks.
-/

namespace Namros.Source

open Library Transaction

/-! ## Segment references -/

def normalizeSegmentRefs (single : SegmentRef) (refs : List SegmentRef) : List SegmentRef :=
  if refs ≠ [] then refs
  else if single.segmentID = "" then []
  else [single]

/-- `objectSegmentRefsFromVersion`, and `objectVersionSegmentRefs` of `scale.go`. -/
def ObjectVersion.allSegmentRefs (version : ObjectVersion) : List SegmentRef :=
  normalizeSegmentRefs version.segmentRef version.segmentRefs

def firstSegmentRef : List SegmentRef → SegmentRef
  | [] => {}
  | ref :: _ => ref

/-! ## Manifest plan (`scale.go`) -/

def maxObjectManifestSegmentRefs : Nat := 10000
def maxObjectManifestValueBytes : Nat := 16 * 1024 * 1024
def objectManifestChunkRefTarget : Nat := 1024

def validateObjectManifestScale (refs : List SegmentRef) : Except Error Unit :=
  if refs.length > maxObjectManifestSegmentRefs then
    .error (.invalidArgument ("object manifest has " ++ toString refs.length ++
      " segment refs, max " ++ toString maxObjectManifestSegmentRefs))
  else .ok ()

/-- The inner loop of `buildObjectManifestChunks`: halve the chunk until its JSON fits. -/
def fitManifestChunk (platform : Platform) (version : ObjectVersion) (refs : List SegmentRef)
    (chunkNumber : Nat) : Nat → Nat → Except Error ObjectManifestChunk
  | 0, _ => .error (.objectManifestTooLarge 0)
  | fuel + 1, chunkSize =>
    let chunk : ObjectManifestChunk :=
      { bucketID := version.bucketID, key := version.key, versionID := version.versionID,
        chunkNumber := chunkNumber, segmentRefs := refs.take chunkSize,
        createdAt := version.createdAt }
    let valueBytes := platform.manifestChunkBytes chunk
    if valueBytes ≤ maxObjectManifestValueBytes then .ok chunk
    else if chunkSize = 1 then .error (.objectManifestTooLarge valueBytes)
    else fitManifestChunk platform version refs chunkNumber fuel (max 1 (chunkSize / 2))

/-- The outer loop of `buildObjectManifestChunks`, numbering chunks from `chunkNumber`. -/
def buildManifestChunksFrom (platform : Platform) (version : ObjectVersion) :
    Nat → List SegmentRef → Nat → Except Error (List ObjectManifestChunk)
  | 0, _, _ => .ok []
  | fuel + 1, refs, chunkNumber =>
    if refs = [] then .ok []
    else do
      let chunkSize := min objectManifestChunkRefTarget refs.length
      let chunk ← fitManifestChunk platform version refs chunkNumber (chunkSize + 1) chunkSize
      let rest ← buildManifestChunksFrom platform version fuel
        (refs.drop chunk.segmentRefs.length) (chunkNumber + 1)
      .ok (chunk :: rest)

def buildObjectManifestChunks (platform : Platform) (version : ObjectVersion)
    (refs : List SegmentRef) : Except Error (List ObjectManifestChunk) :=
  buildManifestChunksFrom platform version (refs.length + 1) refs 1

/-- `ObjectVersionManifestPlan`: the stored record and its chunks. -/
structure ManifestPlan where
  storedVersion : ObjectVersion
  chunks : List ObjectManifestChunk

def planObjectVersionManifestStorage (platform : Platform) (version : ObjectVersion) :
    Except Error ManifestPlan := do
  validateObjectManifestScale version.allSegmentRefs
  let inline := { version with manifest := {} }
  let valueBytes := platform.objectVersionBytes inline
  if valueBytes ≤ maxObjectManifestValueBytes then
    .ok { storedVersion := inline, chunks := [] }
  else
    let refs := version.allSegmentRefs
    if refs = [] then .error (.objectManifestTooLarge valueBytes)
    else
      let chunks ← buildObjectManifestChunks platform version refs
      let chunked := { version with
        segmentRef := {}
        segmentRefs := []
        manifest :=
          { encoding := .chunked, refCount := refs.length, chunkCount := chunks.length } }
      let valueBytes := platform.objectVersionBytes chunked
      if valueBytes > maxObjectManifestValueBytes then .error (.objectManifestTooLarge valueBytes)
      else .ok { storedVersion := chunked, chunks := chunks }

/-! ## Version records -/

/-- `deleteObjectManifestChunks`: the chunks are deleted page by page. -/
def deleteObjectManifestChunks (bucketID versionID : String) : Tx Unit := fun s =>
  if bucketID = "" ∨ versionID = "" then .ok ((), s)
  else .ok ((), OrderedStore.visitAll keyCode (fun k s => s.erase k)
    (manifestChunkPrefix bucketID versionID) scanPageSize s)

/-- The chunk writes of `setObjectVersion`. -/
def setManifestChunks : List ObjectManifestChunk → Tx Unit
  | [] => pure ()
  | chunk :: rest => do
    setJSON (.objectManifestChunk chunk.bucketID chunk.versionID chunk.chunkNumber) chunk
    setManifestChunks rest

/-- `setObjectVersion`. The key in memory is `path`; the stored records keep its JSON text. -/
def setObjectVersion (platform : Platform) (version : ObjectVersion)
    (path : GoString := version.key) : Tx Unit := do
  let plan ← ofOutcome (planObjectVersionManifestStorage platform version)
  onlyIf (version.manifest.encoding = .chunked ∨ plan.chunks ≠ [])
    (deleteObjectManifestChunks version.bucketID version.versionID)
  setManifestChunks plan.chunks
  let stored := plan.storedVersion
  setJSON (.objectVersion stored.bucketID path stored.versionSortKey) stored
  setJSON (.objectVersionByID stored.bucketID stored.versionID)
    { key := stored.key, versionSortKey := stored.versionSortKey }

/-- `deleteObjectVersionRecord`; the version key is absent when the version was not found. -/
def deleteObjectVersionRecord (versionKey : Key) (version : ObjectVersion) : Tx Unit := do
  onlyIf (version.bucketID ≠ "" ∧ version.versionID ≠ "") do
    deleteKey (.objectVersionByID version.bucketID version.versionID)
    deleteObjectManifestChunks version.bucketID version.versionID
  deleteKey versionKey

/-- The chunk loop of `hydrateObjectVersionManifest`, from `chunkNumber` on; `chunk` reads the
chunks of the version. -/
def collectManifestChunks (chunk : Nat → Option ObjectManifestChunk) (version : ObjectVersion) :
    Nat → Nat → Except Error (List SegmentRef)
  | 0, _ => .ok []
  | remaining + 1, chunkNumber =>
    match chunk chunkNumber with
    | none => .error (.unavailable ("object manifest chunk " ++ toString chunkNumber ++
        " is missing for version " ++ quoted version.versionID))
    | some found =>
      if found.bucketID ≠ version.bucketID ∨ found.versionID ≠ version.versionID ∨
          found.chunkNumber ≠ chunkNumber then
        .error (.unavailable ("object manifest chunk " ++ toString chunkNumber ++
          " does not match version " ++ quoted version.versionID))
      else do
        let rest ← collectManifestChunks chunk version remaining (chunkNumber + 1)
        .ok (found.segmentRefs ++ rest)

/-- `hydrateObjectVersionManifest` over a reader of the version's chunks. -/
def hydrateWith (chunk : Nat → Option ObjectManifestChunk) (version : ObjectVersion) :
    Except Error ObjectVersion :=
  if version.manifest.encoding ≠ .chunked then .ok version
  else if version.manifest.chunkCount ≤ 0 ∨ version.manifest.refCount < 0 then
    .error (.unavailable ("object manifest descriptor is invalid for version " ++
      quoted version.versionID))
  else do
    let refs ← collectManifestChunks chunk version version.manifest.chunkCount.toNat 1
    if (refs.length : Int) ≠ version.manifest.refCount then
      .error (.unavailable ("object manifest ref count is " ++ toString refs.length ++ ", want " ++
        toString version.manifest.refCount ++ " for version " ++ quoted version.versionID))
    else .ok { version with segmentRefs := refs, segmentRef := firstSegmentRef refs }

/-- The chunks stored for a version. -/
def chunksOf (s : Store) (version : ObjectVersion) (chunkNumber : Nat) :
    Option ObjectManifestChunk :=
  s.lookup (.objectManifestChunk version.bucketID version.versionID chunkNumber)

def hydrateObjectVersionManifest (version : ObjectVersion) : Tx ObjectVersion := do
  let s ← get
  ofOutcome (hydrateWith (chunksOf s version) version)

/-- The search of `findVersionByID`: by locator, or by a scan of the object's versions that
restores the missing locator. Returns the version's key and its stored record. -/
def locateVersion (bucketID : String) (objectKey : GoString) (versionID : String) :
    Tx (Option (Key × ObjectVersion)) :=
  if versionID = "" then pure none
  else do
    let locator ← getJSON (.objectVersionByID bucketID versionID)
    match locator with
    | some locator =>
      if locator.key ≠ objectKey ∨ locator.versionSortKey = "" then pure none
      else do
        let found ← getJSON (.objectVersion bucketID locator.key locator.versionSortKey)
        match found with
        | none => pure none
        | some version =>
          if version.versionID ≠ versionID ∨ version.key ≠ objectKey then pure none
          else pure (some (.objectVersion bucketID locator.key locator.versionSortKey, version))
    | none => do
      let versions ← scanRecords asObjectVersion (versionPrefix bucketID objectKey)
      match versions.find? (fun entry => entry.2.versionID = versionID) with
      | none => pure none
      | some (versionKey, found) => do
        onlyIf (found.versionID ≠ "" ∧ found.versionSortKey ≠ "")
          (setJSON (.objectVersionByID found.bucketID found.versionID)
            { key := found.key, versionSortKey := found.versionSortKey })
        pure (some (versionKey, found))

/-- `findVersionByID`: the located version with its manifest. -/
def findVersionByID (bucketID : String) (objectKey : GoString) (versionID : String) :
    Tx (Option (Key × ObjectVersion)) := do
  let found ← locateVersion bucketID objectKey versionID
  match found with
  | none => pure none
  | some (versionKey, version) => do
    let version ← hydrateObjectVersionManifest version
    pure (some (versionKey, version))

/-! ## Heads and list entries -/

def headFromHeadEntry (entry : ObjectHeadEntry) : ObjectHead :=
  { bucketID := entry.bucketID, key := entry.key, versionID := entry.versionID,
    revision := entry.revision, sizeBytes := entry.sizeBytes, etag := entry.etag,
    contentType := entry.contentType, storageClass := entry.storageClass,
    serverSideEncryption := entry.serverSideEncryption, userMetadata := entry.userMetadata,
    tags := entry.tags, objectLockRetention := entry.objectLockRetention,
    objectLockLegalHold := entry.objectLockLegalHold, lastModified := entry.lastModified,
    deleteMarker := entry.deleteMarker }

def headEntryFromHead (head : ObjectHead) : ObjectHeadEntry :=
  { bucketID := head.bucketID, key := head.key, versionID := head.versionID,
    revision := head.revision, sizeBytes := head.sizeBytes, etag := head.etag,
    contentType := head.contentType, storageClass := head.storageClass,
    serverSideEncryption := head.serverSideEncryption, userMetadata := head.userMetadata,
    tags := head.tags, objectLockRetention := head.objectLockRetention,
    objectLockLegalHold := head.objectLockLegalHold, lastModified := head.lastModified,
    deleteMarker := head.deleteMarker }

def listEntryFromHead (head : ObjectHead) : ObjectListEntry :=
  { bucketID := head.bucketID, key := head.key, versionID := head.versionID,
    revision := head.revision, sizeBytes := head.sizeBytes, etag := head.etag,
    contentType := head.contentType, storageClass := head.storageClass,
    lastModified := head.lastModified, deleteMarker := head.deleteMarker }

def headFromListEntry (entry : ObjectListEntry) : ObjectHead :=
  { bucketID := entry.bucketID, key := entry.key, versionID := entry.versionID,
    revision := entry.revision, sizeBytes := entry.sizeBytes, etag := entry.etag,
    contentType := entry.contentType, storageClass := entry.storageClass,
    lastModified := entry.lastModified, deleteMarker := entry.deleteMarker }

def headFromVersion (version : ObjectVersion) (lastModified : Time) : ObjectHead :=
  { bucketID := version.bucketID, key := version.key, versionID := version.versionID,
    sizeBytes := version.sizeBytes, etag := version.etag, contentType := version.contentType,
    storageClass := version.storageClass, serverSideEncryption := version.serverSideEncryption,
    segmentRef := version.segmentRef, segmentRefs := version.segmentRefs,
    userMetadata := version.userMetadata, tags := version.tags,
    objectLockRetention := version.objectLockRetention,
    objectLockLegalHold := version.objectLockLegalHold, lastModified := lastModified,
    deleteMarker := version.deleteMarker }

def getObjectHead (bucketID : String) (objectKey : GoString) : Tx (Option ObjectHead) := do
  let entry ← getJSON (.objectHead bucketID objectKey)
  pure (entry.map headFromHeadEntry)

def nextObjectHeadRevision (previous : Option ObjectHead) : UInt64 :=
  match previous with
  | none => 1
  | some previous => if previous.revision = 0 then 1 else previous.revision + 1

def setObjectHead (head : ObjectHead) (path : GoString := head.key) : Tx ObjectHead := do
  let previous ← getObjectHead head.bucketID path
  let head := { head with revision := nextObjectHeadRevision previous }
  setJSON (.objectHead head.bucketID path) (headEntryFromHead head)
  pure head

def setListObject (head : ObjectHead) (path : GoString := head.key) : Tx Unit :=
  if head.deleteMarker then deleteKey (.listObject head.bucketID path)
  else setJSON (.listObject head.bucketID path) (listEntryFromHead head)

/-- A head that `hydrateHeadManifest` returns as it is. -/
def ObjectHead.selfContained (head : ObjectHead) : Prop :=
  head.deleteMarker ∨ head.versionID = "" ∨ head.segmentRef.segmentID ≠ "" ∨
    head.segmentRefs ≠ []
deriving Decidable

/-- The head with the segment references of its version. -/
def ObjectHead.withRefsOf (head : ObjectHead) (version : ObjectVersion) : ObjectHead :=
  { head with segmentRef := version.segmentRef, segmentRefs := version.segmentRefs }

/-- `hydrateHeadManifest`: the head's segment references come from its version. -/
def hydrateHeadManifest (head : ObjectHead) : Tx ObjectHead :=
  if head.selfContained then pure head
  else do
    let found ← findVersionByID head.bucketID head.key head.versionID
    match found with
    | none => pure head
    | some (_, version) => pure (head.withRefsOf version)

/-- `hydrateHeadManifest` where the caller drops its error: a manifest that cannot be read
leaves the empty head. -/
def hydrateHeadOrEmpty (head : ObjectHead) : Tx ObjectHead :=
  if head.selfContained then pure head
  else do
    let found ← locateVersion head.bucketID head.key head.versionID
    match found with
    | none => pure head
    | some (_, version) => fun s =>
      match (hydrateObjectVersionManifest version).run s with
      | .ok (version, s) => .ok (head.withRefsOf version, s)
      | .error _ => .ok ({}, s)

/-- What a hydrated head is: the head as it is, with the references of its version, or, where the
manifest cannot be read, empty. -/
theorem hydrateHeadOrEmpty_ok {head hydrated : ObjectHead} {s t : Store}
    (ran : (hydrateHeadOrEmpty head).run s = .ok (hydrated, t)) :
    hydrated = head ∧ t = s ∨
      ∃ found s₁, (locateVersion head.bucketID head.key head.versionID).run s = .ok (found, s₁) ∧
        (hydrated = head ∧ t = s₁ ∨ hydrated = {} ∧ t = s₁ ∨
          ∃ version w, (hydrateObjectVersionManifest version).run s₁ = .ok (w, t) ∧
            hydrated = head.withRefsOf w) := by
  unfold hydrateHeadOrEmpty at ran
  split at ran
  · cases ran
    exact .inl ⟨rfl, rfl⟩
  obtain ⟨found, s₁, searched, ran⟩ := of_bind ran
  refine .inr ⟨found, s₁, searched, ?_⟩
  cases found with
  | none =>
    cases ran
    exact .inl ⟨rfl, rfl⟩
  | some located =>
    simp only [StateT.run] at ran
    split at ran
    · next w s₂ hydrating =>
      cases ran
      exact .inr (.inr ⟨_, w, hydrating, rfl⟩)
    · cases ran
      exact .inr (.inl ⟨rfl, rfl⟩)

end Namros.Source
