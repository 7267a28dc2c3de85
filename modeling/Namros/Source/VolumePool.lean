import Namros.Source.OffsetStore

/-!
# The volume pool

`internal/storage/volumepool/store.go`: the members of a pool, admission of a write, and the
calls of the pool store, each cut where it leaves the pool's lock. A member's store is known by
the number it was opened with. The `float64` percentages are only compared, and are integers
here.
-/

namespace Namros.Source

open Library

/-! ## Members -/

structure PoolMember where
  volumeID : String := ""
  /-- The opened store; `none` is Go's `nil`. -/
  store : Option Nat := none
  readOnly : Bool := false
  state : VolumePoolState := .unset
  weight : Int := 0
  availableBytes : UInt64 := 0
  (usedPercent highWatermarkPercent : Int := 0)
deriving DecidableEq

inductive AdmissionReason
  | accepted
  | readOnly
  | stateNotActive
  | insufficientAvailableBytes
  | highWatermark
  | noWritableMembers
deriving DecidableEq

def AdmissionReason.text : AdmissionReason → String
  | .accepted => "accepted"
  | .readOnly => "read_only"
  | .stateNotActive => "state_not_active"
  | .insufficientAvailableBytes => "insufficient_available_bytes"
  | .highWatermark => "high_watermark"
  | .noWritableMembers => "no_writable_members"

structure MemberAdmissionDecision where
  volumeID : String
  admitted : Bool
  reason : AdmissionReason
  state : VolumePoolState
  readOnly : Bool
  availableBytes : UInt64
  usedPercent : Int
  highWatermarkPercent : Int
deriving DecidableEq

structure WriteAdmissionPlan where
  admitted : Bool := false
  volumeID : String := ""
  reason : AdmissionReason
  memberDecisions : List MemberAdmissionDecision := []
deriving DecidableEq

structure MemberObservation where
  volumeID : String
  availableBytes : Option UInt64 := none
  usedPercent : Option Int := none
deriving DecidableEq

def maxMemberWeight : Int := 1024

def normalizeState (platform : Platform) (state : VolumePoolState) (readOnly : Bool) :
    Except StorageError VolumePoolState :=
  let underscored := String.ofList (state.text.toList.map fun c => if c = '-' then '_' else c)
  match platform.toLower (trimSpace underscored) with
  | "" => .ok (if readOnly then .readOnly else .active)
  | "active" => .ok .active
  | "read_only" => .ok .readOnly
  | "draining" => .ok .draining
  | "degraded" => .ok .degraded
  | "full" => .ok .full
  | "offline" => .ok .offline
  | text => .error (.invalidArgument ("unsupported volume pool member state " ++ quoted text))

def normalizeMember (platform : Platform) (member : PoolMember) :
    Except StorageError PoolMember :=
  let invalid (detail : String) : Except StorageError PoolMember :=
    .error (.invalidArgument ("volume pool member " ++ quoted member.volumeID ++ detail))
  match normalizeState platform member.state member.readOnly with
  | .error e => .error e
  | .ok state =>
    let weight := if member.weight = 0 then 1 else member.weight
    if weight < 0 ∨ weight > maxMemberWeight then
      invalid (" weight must be between 0 and " ++ toString maxMemberWeight)
    else if member.usedPercent < 0 ∨ member.usedPercent > 100 then
      invalid " used_percent must be between 0 and 100"
    else if member.highWatermarkPercent < 0 ∨ member.highWatermarkPercent > 100 then
      invalid " high_watermark_percent must be between 0 and 100"
    else .ok { member with
      state := state
      readOnly := member.readOnly || state == .readOnly
      weight := weight }

def PoolMember.writeAdmissionDecision (m : PoolMember) (sizeBytes : UInt64) :
    MemberAdmissionDecision :=
  let rejected (reason : AdmissionReason) : MemberAdmissionDecision :=
    { volumeID := m.volumeID, admitted := false, reason := reason, state := m.state,
      readOnly := m.readOnly, availableBytes := m.availableBytes, usedPercent := m.usedPercent,
      highWatermarkPercent := m.highWatermarkPercent }
  if m.readOnly then rejected .readOnly
  else if m.state ≠ .active then rejected .stateNotActive
  else if m.availableBytes > 0 ∧ sizeBytes > m.availableBytes then
    rejected .insufficientAvailableBytes
  else if m.highWatermarkPercent > 0 ∧ m.usedPercent ≥ m.highWatermarkPercent then
    rejected .highWatermark
  else { rejected .accepted with admitted := true }

/-! ## The pool store -/

abbrev PoolMembers := AList fun _ : String => PoolMember

structure PoolStore where
  members : PoolMembers
  order : List String
  next : Nat := 0

/-- One round of the loop of `buildMemberIndex`. -/
def addMember (platform : Platform) (index : PoolMembers × List String) (member : PoolMember) :
    Except StorageError (PoolMembers × List String) :=
  if member.volumeID = "" then
    .error (.invalidArgument "volume pool member volume id is required")
  else if member.store = none then
    .error (.invalidArgument "volume pool member store is required")
  else if (index.1.lookup member.volumeID).isSome then
    .error (.invalidArgument ("duplicate volume pool member " ++ quoted member.volumeID))
  else
    match normalizeMember platform member with
    | .error e => .error e
    | .ok normalized =>
      .ok (index.1.insert normalized.volumeID normalized,
        index.2 ++ List.replicate normalized.weight.toNat normalized.volumeID)

def buildMemberIndex (platform : Platform) (members : List PoolMember) :
    Except StorageError (PoolMembers × List String) :=
  if members = [] then .error (.invalidArgument "volume pool requires at least one member")
  else members.foldlM (addMember platform) (∅, [])

/-- `New`. -/
def newPool (platform : Platform) (members : List PoolMember) : Except StorageError PoolStore :=
  (buildMemberIndex platform members).map fun index => { members := index.1, order := index.2 }

def PoolStore.updateMembers (platform : Platform) (members : List PoolMember) (s : PoolStore) :
    Except StorageError PoolStore :=
  (buildMemberIndex platform members).map fun index =>
    { members := index.1, order := index.2
      next := if s.next ≥ index.2.length then 0 else s.next }

/-- A member with what was observed of it. -/
def PoolMember.observed (member : PoolMember) (observation : MemberObservation) : PoolMember :=
  { member with
    availableBytes := observation.availableBytes.getD member.availableBytes
    usedPercent :=
      match observation.usedPercent with
      | none => member.usedPercent
      | some used => if 0 ≤ used ∧ used ≤ 100 then used else member.usedPercent }

/-- One round of the loop of `UpdateMemberObservations`. -/
def PoolStore.observe (s : PoolStore) (observation : MemberObservation) : PoolStore :=
  match s.members.lookup (trimSpace observation.volumeID) with
  | none => s
  | some member =>
    { s with members := s.members.insert member.volumeID (member.observed observation) }

def PoolStore.updateMemberObservations (observations : List MemberObservation) (s : PoolStore) :
    PoolStore :=
  observations.foldl PoolStore.observe s

/-- The loop of `planWriteLocked` from its round `i` on, and the next starting point. -/
def PoolStore.planFrom (s : PoolStore) (sizeBytes : UInt64) :
    List Nat → WriteAdmissionPlan → WriteAdmissionPlan × Nat
  | [], plan => (plan, s.next)
  | i :: rounds, plan =>
    let idx := (s.next + i) % s.order.length
    let member := (s.members.lookup (s.order.getD idx "")).getD {}
    let decision := member.writeAdmissionDecision sizeBytes
    let plan :=
      if plan.memberDecisions.any fun seen => seen.volumeID == member.volumeID then plan
      else { plan with memberDecisions := plan.memberDecisions ++ [decision] }
    if decision.admitted then
      ({ plan with admitted := true, volumeID := member.volumeID, reason := .accepted },
        (idx + 1) % s.order.length)
    else s.planFrom sizeBytes rounds plan

def PoolStore.planWriteLocked (s : PoolStore) (sizeBytes : UInt64) : WriteAdmissionPlan × Nat :=
  s.planFrom sizeBytes (List.range s.order.length) { reason := .noWritableMembers }

def PoolStore.nextWritableMember (s : PoolStore) (sizeBytes : UInt64) :
    Except StorageError PoolMember × PoolStore :=
  let (plan, next) := s.planWriteLocked sizeBytes
  if plan.admitted then
    (.ok ((s.members.lookup plan.volumeID).getD {}), { s with next := next })
  else
    (.error (.unavailable ("volume pool write admission rejected: " ++ plan.reason.text)), s)

def PoolStore.debitAvailable (s : PoolStore) (volumeID : String) (sizeBytes : UInt64) : PoolStore :=
  if sizeBytes = 0 then s
  else
    match s.members.lookup volumeID with
    | none => s
    | some member =>
      if member.availableBytes = 0 then s
      else
        let available :=
          if sizeBytes ≥ member.availableBytes then 0 else member.availableBytes - sizeBytes
        { s with members := s.members.insert volumeID { member with availableBytes := available } }

def volumeIDFromRef (ref : SegmentRef) : String :=
  let named := (ref.placement.parameters.lookup "volume_id").getD ""
  if named ≠ "" then named
  else ((ref.placement.chunks.map PlacementChunk.volumeID).find? (· ≠ "")).getD ""

def PoolStore.memberForRef (s : PoolStore) (ref : SegmentRef) : Except StorageError PoolMember :=
  let volumeID := volumeIDFromRef ref
  if volumeID = "" ∧ s.order.length = 1 then
    .ok ((s.members.lookup (s.order.getD 0 "")).getD {})
  else
    match s.members.lookup volumeID with
    | none => .error (.missing ("volume pool member " ++ quoted volumeID ++ " not found"))
    | some member => .ok member

def stampVolumeID (ref : SegmentRef) (volumeID : String) : SegmentRef :=
  { ref with placement := { ref.placement with
      parameters := ("volume_id", volumeID) ::
        ref.placement.parameters.filter fun parameter => parameter.1 ≠ "volume_id"
      chunks :=
        if ref.placement.chunks = [] then
          [{ volumeID := volumeID, sizeBytes := ref.sizeBytes, lengthBytes := ref.sizeBytes }]
        else ref.placement.chunks.map fun chunk => { chunk with volumeID := volumeID } } }

/-- One round of the loop of `ListGCCandidates`. What a member's store answers is a parameter,
`none` for a store that is no `OrphanTracker`. -/
def addCandidates (trackers : Option Nat → Option (Except StorageError (List StoredCandidate)))
    (out : List StoredCandidate) (member : PoolMember) :
    Except StorageError (List StoredCandidate) :=
  match trackers member.store with
  | none => .ok out
  | some (.error e) => .error e
  | some (.ok candidates) => .ok (out ++ candidates.map fun candidate =>
      { candidate with ref := stampVolumeID candidate.ref member.volumeID })

/-- `ListGCCandidates`; the order `sort.Slice` leaves is a parameter. -/
def PoolStore.listGCCandidates (s : PoolStore)
    (trackers : Option Nat → Option (Except StorageError (List StoredCandidate)))
    (sort : List StoredCandidate → List StoredCandidate) (limit : Int) :
    Except StorageError (List StoredCandidate) := do
  let members := s.order.map fun volumeID => (s.members.lookup volumeID).getD {}
  let out ← members.foldlM (addCandidates trackers) []
  let out := sort out
  return if 0 < limit ∧ limit < out.length then out.take limit.toNat else out

/-! ## Calls -/

inductive PoolRequest
  | put (req : PutSegmentRequest)
  | get (ref : SegmentRef) (off length : UInt64)
  | delete (ref : SegmentRef) (reason : DeleteReason)

/-- What a member's store answers, or the pool returns. -/
inductive PoolAnswer
  | put (answer : Except StorageError SegmentRef)
  | get (answer : Except StorageError SegmentReader)
  | delete (answer : Except StorageError Unit)

/-- The answer of a request that is refused. -/
def PoolRequest.failed (e : StorageError) : PoolRequest → PoolAnswer
  | .put _ => .put (.error e)
  | .get _ _ _ => .get (.error e)
  | .delete _ _ => .delete (.error e)

/-- A call of the pool store, by what it does next. -/
inductive PoolCall
  | start
  /-- In the store of the member the call has a copy of. -/
  | inStore (member : PoolMember)
  /-- `debitAvailable`, after a write that succeeded. -/
  | debiting (member : PoolMember) (ref : SegmentRef)
  | returned (answer : PoolAnswer)

/-- The next step of a call under the pool's lock. -/
def PoolCall.serve (request : PoolRequest) (s : PoolStore) : PoolCall → PoolStore × PoolCall
  | .start =>
    match request with
    | .put req =>
      match s.nextWritableMember req.sizeBytes with
      | (.error e, s') => (s', .returned (request.failed e))
      | (.ok member, s') => (s', .inStore member)
    | .get ref _ _ | .delete ref _ =>
      match s.memberForRef ref with
      | .error e => (s, .returned (request.failed e))
      | .ok member => (s, .inStore member)
  | .debiting member ref =>
    match request with
    | .put req =>
      (s.debitAvailable member.volumeID req.sizeBytes,
        .returned (.put (.ok (stampVolumeID ref member.volumeID))))
    | _ => (s, .debiting member ref)
  | call => (s, call)

/-- The member's store answers. -/
def PoolCall.answer (request : PoolRequest) (answer : PoolAnswer) : PoolCall → PoolCall
  | .inStore member =>
    match request, answer with
    | .put _, .put (.ok ref) => .debiting member ref
    | .put _, .put (.error e) => .returned (.put (.error e))
    | .get _ _ _, .get found => .returned (.get found)
    | .delete _ _, .delete done => .returned (.delete done)
    | _, _ => .inStore member
  | call => call

end Namros.Source
