import Namros.Source.Repository

/-!
# Object lock rules

The validators and the protection predicates of `repository.go:5783-5860`.
-/

namespace Namros.Source

def isValidObjectLockMode (mode : ObjectLockMode) : Bool :=
  mode == .governance || mode == .compliance

def validateObjectLockState (retention : ObjectLockRetention) (legalHold : LegalHoldStatus) :
    Except Error Unit := do
  if retention.mode = .none then
    if ¬ retention.retainUntilDate.isZero then
      throw (.invalidArgument "object lock retention mode is required")
  else if ¬ isValidObjectLockMode retention.mode then
    throw (.invalidArgument "object lock retention mode is invalid")
  else if retention.retainUntilDate.isZero then
    throw (.invalidArgument "object lock retain-until date is required")
  match legalHold with
  | .unset | .on | .off => pure ()
  | .other _ => throw (.invalidArgument "object lock legal hold status is invalid")

def validateBucketObjectLockConfiguration (configuration : BucketObjectLockConfiguration) :
    Except Error Unit :=
  let retention := configuration.defaultRetention
  if ¬ configuration.enabled then
    .error (.invalidArgument "object lock configuration must be enabled")
  else if retention.mode = .none ∧ retention.days = 0 ∧ retention.years = 0 then .ok ()
  else if ¬ isValidObjectLockMode retention.mode then
    .error (.invalidArgument "object lock default retention mode is invalid")
  else if retention.days ≤ 0 ∧ retention.years ≤ 0 then
    .error (.invalidArgument "object lock default retention period is required")
  else if retention.days > 0 ∧ retention.years > 0 then
    .error (.invalidArgument "object lock default retention must use days or years")
  else .ok ()

def objectLockProtected (deleteMarker : Bool) (retention : ObjectLockRetention)
    (legalHold : LegalHoldStatus) (now : Time) (bypassGovernance : Bool) : Bool :=
  if deleteMarker then false
  else if legalHold = .on then true
  else if retention.mode = .none then false
  else if retention.retainUntilDate.isZero then true
  else if ¬ now < retention.retainUntilDate then false
  else match retention.mode with
    | .compliance => true
    | .governance => !bypassGovernance
    | _ => true

/-- `objectVersionProtectedByObjectLock`. -/
def ObjectVersion.protectedByObjectLock (version : ObjectVersion) (now : Time)
    (bypassGovernance : Bool) : Bool :=
  objectLockProtected version.deleteMarker version.objectLockRetention
    version.objectLockLegalHold now bypassGovernance

/-- `objectHeadProtectedByObjectLock`. -/
def ObjectHead.protectedByObjectLock (head : ObjectHead) (now : Time)
    (bypassGovernance : Bool) : Bool :=
  objectLockProtected head.deleteMarker head.objectLockRetention head.objectLockLegalHold now
    bypassGovernance

def retentionUpdateBlocked (current next : ObjectLockRetention) (now : Time)
    (bypassGovernance : Bool) : Bool :=
  if current.mode = .none then false
  else if current.retainUntilDate.isZero then true
  else if ¬ now < current.retainUntilDate then false
  else match current.mode with
    | .compliance =>
      decide (next.mode ≠ .compliance) || decide (next.retainUntilDate < current.retainUntilDate)
    | .governance => !bypassGovernance
    | _ => true

end Namros.Source
