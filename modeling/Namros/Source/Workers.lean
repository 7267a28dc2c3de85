import Namros.Source.Tenants

/-!
# Records of volume drains and worker leases

`PutVolumeDrainOperation`, `AcquireWorkerLease` and `ReleaseWorkerLease` of `repository.go` with
the builders of `internal/meta/volume_drain.go` and `internal/meta/worker.go`.
-/

namespace Namros.Source

open Library Transaction

/-- The id of the `n`-th operation of a kind. -/
def operationID (kind : String) (n : Nat) : String := kind ++ paddedNumber n

/-! ## Volume pools -/

def VolumePoolState.text : VolumePoolState → String
  | .unset => ""
  | .active => "active"
  | .readOnly => "read_only"
  | .draining => "draining"
  | .degraded => "degraded"
  | .full => "full"
  | .offline => "offline"
  | .other text => text

/-! ## Volume drains -/

structure PutVolumeDrainOperationRequest where
  (resumeOfOperationID poolID sourceVolumeID targetVolumeID ownerID : String := "")
  status : VolumeDrainOperationStatus := .unset
  cursor : String := ""
  (startedAt finishedAt : Time := 0)
  (scanned copied skipped protectedCount retryable : Int := 0)
  attempts : List VolumeDrainAttempt := []
deriving DecidableEq

def normalizeVolumeDrainOperationStatus (status : VolumeDrainOperationStatus) (retryable : Int) :
    VolumeDrainOperationStatus :=
  match status with
  | .unset => if retryable > 0 then .retryPending else .succeeded
  | .other _ => .failed
  | known => known

/-- The copy `CloneVolumeDrainAttempts` makes of one attempt. -/
def cloneVolumeDrainAttempt (attempt : VolumeDrainAttempt) : VolumeDrainAttempt :=
  let source := trimSpace attempt.sourceSegmentID
  let target := trimSpace attempt.targetSegmentID
  { attempt with
    sourceSegmentID := if source = "" then attempt.sourceRef.segmentID else source
    targetSegmentID := if target = "" then attempt.targetRef.segmentID else target }

def buildVolumeDrainOperation (operationID : String) (req : PutVolumeDrainOperationRequest)
    (now : Time) : Except Error VolumeDrainOperationRecord :=
  let sourceVolumeID := trimSpace req.sourceVolumeID
  let operationID := trimSpace operationID
  if sourceVolumeID = "" then .error (.invalidArgument "source volume id is required")
  else if operationID = "" then
    .error (.invalidArgument "volume drain operation id is required")
  else .ok
    { operationID := operationID
      resumeOfOperationID := trimSpace req.resumeOfOperationID
      poolID := trimSpace req.poolID
      sourceVolumeID := sourceVolumeID
      targetVolumeID := trimSpace req.targetVolumeID
      ownerID := trimSpace req.ownerID
      status := normalizeVolumeDrainOperationStatus req.status req.retryable
      cursor := trimSpace req.cursor
      startedAt := req.startedAt
      finishedAt := req.finishedAt
      scanned := req.scanned
      copied := req.copied
      skipped := req.skipped
      protectedCount := req.protectedCount
      retryable := req.retryable
      attempts := req.attempts.map cloneVolumeDrainAttempt
      createdAt := now }

def putVolumeDrainOperation (context : CallContext) (req : PutVolumeDrainOperationRequest) :
    Tx VolumeDrainOperationRecord := do
  let sequence ← nextSequence sequenceVolumeDrain
  let record ← ofOutcome
    (buildVolumeDrainOperation (operationID "drain-" sequence) req (context.now 0))
  setJSON (.volumeDrainOperation record.operationID) record
  pure record

/-! ## Worker leases -/

structure AcquireWorkerLeaseRequest where
  (workerKind shardID ownerID : String := "")
  ttl : Int := 0
  cursor : String := ""

structure ReleaseWorkerLeaseRequest where
  (workerKind shardID ownerID : String := "")

def workerLeaseID (workerKind shardID : String) : String :=
  trimSpace workerKind ++ "/" ++ trimSpace shardID

/-- `BuildWorkerLease`; `existing` is the zero record where none is stored. -/
def buildWorkerLease (platform : Platform) (existing : WorkerLease)
    (req : AcquireWorkerLeaseRequest) (now : Time) : Except Error WorkerLease :=
  let workerKind := trimSpace req.workerKind
  let shardID := trimSpace req.shardID
  let ownerID := trimSpace req.ownerID
  let next := existing.generation + 1
  if workerKind = "" ∨ shardID = "" ∨ ownerID = "" then
    .error (.invalidArgument "worker kind, shard id, and owner id are required")
  else if req.ttl ≤ 0 then .error (.invalidArgument "worker lease ttl must be positive")
  else if existing.leaseID ≠ "" ∧ existing.ownerID ≠ ownerID ∧ now < existing.expiresAt then
    .error (.casConflict ("worker lease " ++ quoted existing.leaseID ++ " is held by " ++
      quoted existing.ownerID ++ " until " ++ platform.rfc3339Nano existing.expiresAt))
  else
    let changes : Bool := existing.leaseID = "" ∨ existing.ownerID ≠ ownerID
    .ok
      { leaseID := workerLeaseID workerKind shardID
        workerKind := workerKind
        shardID := shardID
        ownerID := ownerID
        generation :=
          if changes then if next = 0 then 1 else next else existing.generation
        cursor := trimSpace req.cursor
        acquiredAt := if changes then now else existing.acquiredAt
        updatedAt := now
        expiresAt := now + req.ttl }

def acquireWorkerLease (platform : Platform) (now : Time) (req : AcquireWorkerLeaseRequest) :
    Tx WorkerLease := do
  let workerKind := trimSpace req.workerKind
  let shardID := trimSpace req.shardID
  let existing ← getJSON (.workerLease workerKind shardID)
  let lease ← ofOutcome (buildWorkerLease platform (existing.getD {}) req now)
  failIf (lease.leaseID ≠ workerLeaseID workerKind shardID)
    (.invalidArgument "worker lease id mismatch")
  setJSON (.workerLease workerKind shardID) lease
  pure lease

def releaseWorkerLease (now : Time) (req : ReleaseWorkerLeaseRequest) : Tx Unit := do
  let workerKind := trimSpace req.workerKind
  let shardID := trimSpace req.shardID
  let ownerID := trimSpace req.ownerID
  failIf (workerKind = "" ∨ shardID = "" ∨ ownerID = "")
    (.invalidArgument "worker kind, shard id, and owner id are required")
  let stored ← getJSON (.workerLease workerKind shardID)
  let existing ← orFail stored .notFound
  failIf (existing.ownerID ≠ ownerID)
    (.casConflict ("worker lease " ++ quoted existing.leaseID ++ " is held by " ++
      quoted existing.ownerID))
  setJSON (.workerLease workerKind shardID) { existing with updatedAt := now, expiresAt := now }

end Namros.Source
