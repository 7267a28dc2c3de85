import Mathlib.Data.List.Basic

/-!
# Admission of gateway requests

The drain controller of `internal/gateway/drain.go`. Every method holds the controller's lock, so
it is one step; `WaitDrained` is two, with the wait for the channel between them. The counters
are natural numbers: they count calls in progress.
-/

namespace Namros.Source

/-! ## The drain controller -/

inductive GatewayDrainState
  | active
  | draining
  | drained
deriving DecidableEq

/-- The controller; `closed` counts the closings of its channel `drained`. -/
structure GatewayDrainController where
  state : GatewayDrainState := .active
  inFlightWrites : Nat := 0
  closed : Nat := 0

namespace GatewayDrainController

def markDrainedLocked (d : GatewayDrainController) : GatewayDrainController :=
  if d.state = .drained then d else { d with state := .drained, closed := d.closed + 1 }

/-- The end of `StartDrain` and of `finishWrite`. -/
def settleLocked (d : GatewayDrainController) : GatewayDrainController :=
  if d.state = .draining ∧ d.inFlightWrites = 0 then d.markDrainedLocked else d

/-- `Admit` of a write operation; `none` is `ErrGatewayDraining`. -/
def admitWrite (d : GatewayDrainController) : Option GatewayDrainController :=
  if d.state ≠ .active then none else some { d with inFlightWrites := d.inFlightWrites + 1 }

def startDrain (d : GatewayDrainController) : GatewayDrainController :=
  settleLocked (if d.state = .active then { d with state := .draining } else d)

def finishWrite (d : GatewayDrainController) : GatewayDrainController :=
  settleLocked
    (if d.inFlightWrites > 0 then { d with inFlightWrites := d.inFlightWrites - 1 } else d)

end GatewayDrainController

inductive WaitError
  | drainNotStarted
  | context (text : String)
deriving DecidableEq

/-- The controller with the writes it admitted, each with whether it is released, the number of
`WaitDrained` calls at their `select`, and what the others returned. -/
structure GatewayDrain where
  controller : GatewayDrainController := {}
  writes : List Bool := []
  waiting : Nat := 0
  answers : List (Option WaitError) := []

inductive GatewayDrainEvent
  /-- `Admit`, with `isGatewayDrainWriteOperation` of the operation. -/
  | admission (isWrite : Bool)
  | release (write : Nat)
  | startDrain
  /-- `WaitDrained` up to its `select`. -/
  | waitDrained
  /-- The `select`, with the error of the context if that is done and chosen. -/
  | select (done : Option String)

/-- One step. Only the first release of a write reaches `finishWrite`: `once` stops the others. -/
def GatewayDrain.step (sys : GatewayDrain) : GatewayDrainEvent → GatewayDrain
  | .admission isWrite =>
    if isWrite then
      match sys.controller.admitWrite with
      | some controller => { sys with controller, writes := sys.writes ++ [false] }
      | none => sys
    else sys
  | .release i =>
    if sys.writes[i]? = some false then { sys with
      controller := sys.controller.finishWrite, writes := sys.writes.set i true }
    else sys
  | .startDrain => { sys with controller := sys.controller.startDrain }
  | .waitDrained =>
    match sys.controller.state with
    | .active => { sys with answers := some .drainNotStarted :: sys.answers }
    | .drained => { sys with answers := none :: sys.answers }
    | .draining => { sys with waiting := sys.waiting + 1 }
  | .select done =>
    if sys.waiting = 0 ∨ done = none ∧ sys.controller.closed = 0 then sys
    else { sys with waiting := sys.waiting - 1, answers := done.map .context :: sys.answers }

end Namros.Source
