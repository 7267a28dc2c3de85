import Namros.Source.SegmentReading

/-!
# Chunk id and volume session caches, session identities

`internal/storage/sbs/physical_allocator_cache.go`, `volume_session_cache.go` and
`session_identity.go`. Both caches do their work under one lock, so a call is one step wherever it
holds the lock.
-/

namespace Namros.Source

/-! ## Chunk ids -/

/-- The cached rest of a range, from `next` up to `stop`. -/
structure PhysicalChunkIDCacheRange where
  next : UInt64 := 0
  stop : UInt64 := 0

/-- The chunk ids from `start` on, `count` of them. -/
structure ChunkRange where
  volumeID : String
  start : UInt64
  count : UInt32
deriving DecidableEq

/-- A call of `AllocateChunkIDs`, with the backing allocator as it answers during the call. -/
structure AllocationCall where
  volumeID : String
  count : UInt32
  next : String → UInt32 → Except StorageError UInt64

/-- What a call leaves: the cache, its answer and what it obtained from the backing allocator. -/
structure Allocation where
  volumes : String → PhysicalChunkIDCacheRange
  answer : Except StorageError UInt64
  obtained : List ChunkRange := []

/-- The end of `AllocateChunkIDs`: the first ids of a range are handed out and the rest of it is
cached. -/
def carve (volumes : String → PhysicalChunkIDCacheRange) (volumeID : String) (count : UInt32)
    (cached : PhysicalChunkIDCacheRange) (obtained : List ChunkRange) : Allocation where
  volumes := Function.update volumes volumeID { cached with next := cached.next + count.toUInt64 }
  answer := .ok cached.next
  obtained := obtained

/-- A call handed on to the backing allocator. -/
def AllocationCall.forward (call : AllocationCall) (volumeID : String)
    (volumes : String → PhysicalChunkIDCacheRange) : Allocation :=
  match call.next volumeID call.count with
  | .error e => { volumes, answer := .error e }
  | .ok start =>
    { volumes, answer := .ok start, obtained := [⟨volumeID, start, call.count⟩] }

/-- `AllocateChunkIDs` of the cached allocator. -/
def AllocationCall.allocateChunkIDs (cacheSize : UInt32) (call : AllocationCall)
    (volumes : String → PhysicalChunkIDCacheRange) : Allocation :=
  if call.count = 0 then { volumes, answer := .ok 0 }
  else
    let volumeID := trimSpace call.volumeID
    if volumeID = "" then
      { volumes, answer := .error (.invalidArgument "volume id is required") }
    else if cacheSize = 0 ∨ call.count > cacheSize then call.forward volumeID volumes
    else
      let cached := volumes volumeID
      if cached.stop - cached.next < call.count.toUInt64 then
        match call.next volumeID cacheSize with
        | .error e => { volumes, answer := .error e }
        | .ok start =>
          let obtained := [⟨volumeID, start, cacheSize⟩]
          if start > 0xFFFFFFFFFFFFFFFF - cacheSize.toUInt64 then
            { volumes, obtained,
              answer := .error (.invalidArgument "chunk id allocation range overflow") }
          else carve volumes volumeID call.count ⟨start, start + cacheSize.toUInt64⟩ obtained
      else carve volumes volumeID call.count cached []

/-- The volume the ids of a call are for: `NewCachedPhysicalChunkAllocator` returns the backing
allocator itself when there is nothing to cache. -/
def AllocationCall.volume (cacheSize : UInt32) (call : AllocationCall) : String :=
  if cacheSize = 0 then call.volumeID else trimSpace call.volumeID

/-- A call of the allocator `NewCachedPhysicalChunkAllocator` returns. -/
def AllocationCall.serve (cacheSize : UInt32) (call : AllocationCall)
    (volumes : String → PhysicalChunkIDCacheRange) : Allocation :=
  if cacheSize = 0 then call.forward call.volumeID volumes
  else call.allocateChunkIDs cacheSize volumes

/-- The allocator with all it obtained and all it returned. -/
structure AllocationHistory where
  volumes : String → PhysicalChunkIDCacheRange := fun _ => {}
  obtained : List ChunkRange := []
  returned : List ChunkRange := []

/-- The history with one more call, for ids of this volume. -/
def AllocationHistory.record (h : AllocationHistory) (volumeID : String) (count : UInt32)
    (allocation : Allocation) : AllocationHistory where
  volumes := allocation.volumes
  obtained := h.obtained ++ allocation.obtained
  returned := match allocation.answer with
    | .ok start => h.returned ++ [⟨volumeID, start, count⟩]
    | .error _ => h.returned

def AllocationHistory.step (cacheSize : UInt32) (h : AllocationHistory) (call : AllocationCall) :
    AllocationHistory :=
  h.record (call.volume cacheSize) call.count (call.serve cacheSize h.volumes)

/-! ## Volume sessions -/

structure VolumeSession where
  volumeID : String := ""
  volumeHandle : String := ""
  volumeRevision : UInt64 := 0
  serverVersion : String := ""

structure VolumeSessionKey where
  dataEndpoint : String := ""
  volumeID : String := ""
  accessMode : String := ""
  gatewayID : String := ""
  attachmentID : String := ""
  generation : UInt64 := 0
  poolID : String := ""
  poolGeneration : UInt64 := 0
  memberGeneration : UInt64 := 0
  volumeEpoch : UInt64 := 0
  writerGroupID : String := ""
  gatewayInstanceID : String := ""
  sessionID : String := ""
  sessionGeneration : UInt64 := 0
deriving DecidableEq

def normalizeVolumeSessionKey (key : VolumeSessionKey) : VolumeSessionKey := { key with
  dataEndpoint := trimSpace key.dataEndpoint
  volumeID := trimSpace key.volumeID
  accessMode := trimSpace key.accessMode
  gatewayID := trimSpace key.gatewayID
  attachmentID := trimSpace key.attachmentID
  poolID := trimSpace key.poolID
  writerGroupID := trimSpace key.writerGroupID
  gatewayInstanceID := trimSpace key.gatewayInstanceID
  sessionID := trimSpace key.sessionID }

/-- `Validate` of a normalised key: the first required field that is missing. -/
def VolumeSessionKey.validate (key : VolumeSessionKey) : Except StorageError Unit :=
  match [(key.dataEndpoint == "", "data endpoint"), (key.volumeID == "", "volume id"),
      (key.accessMode == "", "access mode"), (key.gatewayID == "", "gateway id"),
      (key.attachmentID == "", "attachment id"), (key.generation == 0, "generation")].find?
        Prod.fst with
  | some (_, field) => .error (.invalidArgument ("sbs session " ++ field ++ " is required"))
  | none => .ok ()

/-- What `Acquire` keeps of an opened session. -/
def VolumeSession.accept (key : VolumeSessionKey) (opened : VolumeSession) :
    Except StorageError VolumeSession :=
  let volumeID := trimSpace opened.volumeID
  let session := { opened with
    volumeID := if volumeID = "" then key.volumeID else volumeID
    volumeHandle := trimSpace opened.volumeHandle }
  if session.volumeID ≠ key.volumeID then
    .error (.invalidArgument ("open volume response volume mismatch got " ++
      quoted session.volumeID ++ " want " ++ quoted key.volumeID))
  else if session.volumeHandle = "" then
    .error (.unavailable "sbs data endpoint returned empty open volume handle")
  else .ok session

/-- A cached session. The sessions placed in the cache are numbered by `serial`. -/
structure VolumeSessionEntry where
  session : VolumeSession
  refs : Nat
  serial : Nat

inductive LeaseState
  | held
  /-- `Release` took the session out of the cache and has yet to close it. -/
  | closing
  | released
deriving DecidableEq

structure VolumeSessionLease where
  key : VolumeSessionKey
  session : VolumeSession
  serial : Nat
  state : LeaseState := .held

/-- The cache with all leases it returned, the number of sessions placed in it, and the sessions
closed so far. -/
structure SessionSystem where
  entries : VolumeSessionKey → Option VolumeSessionEntry := fun _ => none
  leases : List VolumeSessionLease := []
  placed : Nat := 0
  closed : List Nat := []

inductive SessionEvent
  /-- `Acquire`, with the error of its context and the answer of its open function. -/
  | acquire (contextErr : Option StorageError) (key : VolumeSessionKey)
      (opened : Except StorageError VolumeSession)
  /-- `Release` of a lease, up to the end of the locked part. -/
  | release (lease : Nat)
  /-- The close call of a `Release`. -/
  | close (lease : Nat)

def SessionSystem.acquire (sys : SessionSystem) (contextErr : Option StorageError)
    (key : VolumeSessionKey) (opened : Except StorageError VolumeSession) :
    Except StorageError SessionSystem := do
  if let some e := contextErr then throw e
  let key := normalizeVolumeSessionKey key
  key.validate
  match sys.entries key with
  | some entry => return { sys with
      entries := Function.update sys.entries key (some { entry with refs := entry.refs + 1 })
      leases := sys.leases ++ [{ key, session := entry.session, serial := entry.serial }] }
  | none =>
    let session ← (← opened).accept key
    return { sys with
      entries := Function.update sys.entries key (some ⟨session, 1, sys.placed⟩)
      leases := sys.leases ++ [{ key, session, serial := sys.placed }]
      placed := sys.placed + 1 }

/-- `release`: whether the session is left to close, and the cache. -/
def releaseEntry (entries : VolumeSessionKey → Option VolumeSessionEntry)
    (key : VolumeSessionKey) : LeaseState × (VolumeSessionKey → Option VolumeSessionEntry) :=
  let key := normalizeVolumeSessionKey key
  match entries key with
  | none => (.released, entries)
  | some entry =>
    if entry.refs > 1 then
      (.released, Function.update entries key (some { entry with refs := entry.refs - 1 }))
    else (.closing, Function.update entries key none)

/-- One step. A `Release` that is not the first of its lease does nothing: `once` lets one call
through and the others wait for it. -/
def SessionSystem.step (sys : SessionSystem) : SessionEvent → SessionSystem
  | .acquire contextErr key opened =>
    match sys.acquire contextErr key opened with
    | .ok next => next
    | .error _ => sys
  | .release i =>
    match sys.leases[i]? with
    | some lease =>
      if lease.state = .held then
        let (state, entries) := releaseEntry sys.entries lease.key
        { sys with entries, leases := sys.leases.set i { lease with state } }
      else sys
    | none => sys
  | .close i =>
    match sys.leases[i]? with
    | some lease =>
      if lease.state = .closing then { sys with
        leases := sys.leases.set i { lease with state := .released }
        closed := sys.closed ++ [lease.serial] }
      else sys
    | none => sys

/-! ## Session identities -/

structure SessionIdentity where
  poolID : String := ""
  poolGeneration : UInt64 := 0
  volumeID : String := ""
  memberGeneration : UInt64 := 0
  volumeEpoch : UInt64 := 0
  writerGroupID : String := ""
  gatewayID : String := ""
  gatewayInstanceID : String := ""
  sessionID : String := ""
  sessionGeneration : UInt64 := 0
  (sessionTTL heartbeatInterval : Int := 0)
deriving DecidableEq

def SessionIdentity.enabled (id : SessionIdentity) : Prop :=
  trimSpace id.writerGroupID ≠ "" ∨ trimSpace id.sessionID ≠ "" ∨ id.volumeEpoch ≠ 0 ∨
    id.sessionGeneration ≠ 0
deriving Decidable

def trimSessionIdentity (id : SessionIdentity) : SessionIdentity := { id with
  poolID := trimSpace id.poolID
  volumeID := trimSpace id.volumeID
  writerGroupID := trimSpace id.writerGroupID
  gatewayID := trimSpace id.gatewayID
  gatewayInstanceID := trimSpace id.gatewayInstanceID
  sessionID := trimSpace id.sessionID }

/-- `strings.ReplaceAll` of a single character. -/
def replaceAll (value : String) (old : Char) (new : String) : String :=
  String.ofList (value.toList.flatMap fun c => if c = old then new.toList else [c])

def escapeSessionScopePart (value : String) : String :=
  replaceAll (replaceAll (replaceAll value '\\' "\\\\") '|' "\\|") '=' "\\="

def SessionIdentity.idempotencyScope (id : SessionIdentity) : String :=
  let id := trimSessionIdentity id
  if ¬ id.enabled then ""
  else "|".intercalate
    ["scope=v1",
     "pool=" ++ escapeSessionScopePart id.poolID,
     "pool_generation=" ++ toString id.poolGeneration.toNat,
     "volume=" ++ escapeSessionScopePart id.volumeID,
     "member_generation=" ++ toString id.memberGeneration.toNat,
     "volume_epoch=" ++ toString id.volumeEpoch.toNat,
     "writer_group=" ++ escapeSessionScopePart id.writerGroupID,
     "gateway=" ++ escapeSessionScopePart id.gatewayID,
     "gateway_instance=" ++ escapeSessionScopePart id.gatewayInstanceID,
     "session=" ++ escapeSessionScopePart id.sessionID,
     "session_generation=" ++ toString id.sessionGeneration.toNat]

end Namros.Source
