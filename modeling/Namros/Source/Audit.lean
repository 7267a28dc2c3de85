import Namros.Source.Repository

/-!
# Sequences and the audit chain

`reserveSequences`, `appendAuditEvent` and the event builders of `repository.go:4128-4163`,
`4384-4402` and `5856-5942`. Every event carries the hash of the event before it; the hash of the
last event is kept under the audit head.

A sequence counter is a natural number: it starts at zero and only grows, and the 64-bit
bound of Go's `int` is not modelled.
-/

namespace Namros.Source

open Library Transaction

structure AuditContext where
  (requestID reason : String := "")
  principal : AuditPrincipal := {}
deriving DecidableEq

/-! ## Sequences -/

def sequenceAudit : String := "audit"
def sequenceVolumeDrain : String := "volume-drain-operation"

/-- `reserveSequences`: the first of `count` reserved numbers. -/
def reserveSequences (name : String) (count : Nat) : Tx Nat := do
  failIf (count = 0) (.invalidArgument "sequence reservation count must be positive")
  let record ← getJSON (.sequence name)
  let value := record.getD 0
  setJSON (.sequence name) (value + count)
  pure (value + 1)

def nextSequence (name : String) : Tx Nat := reserveSequences name 1

/-- `strconv.Atoi`: an optional sign and decimal digits, within 64 bits. -/
def atoi (text : String) : Option Int :=
  let (negative, digits) := match text.toList with
    | '-' :: rest => (true, rest)
    | '+' :: rest => (false, rest)
    | chars => (false, chars)
  if digits = [] ∨ ¬ digits.all (fun c => '0' ≤ c && c ≤ '9') then none
  else
    let value : Int := digits.foldl (fun n c => n * 10 + ((c.toNat : Int) - 0x30)) 0
    let value := if negative then -value else value
    if -(2 ^ 63) ≤ value ∧ value < 2 ^ 63 then some value else none

/-- `fmt.Sprintf("%020d", n)`. -/
def paddedNumber (n : Nat) : String :=
  String.ofList ((leftPadInt n 20).map fun c => Char.ofNat c.toNat)

/-- The id of the `n`-th audit event. -/
def auditEventID (n : Nat) : String := "audit-" ++ paddedNumber n

/-! ## Events -/

/-- `auditEventHash`: the hash covers every field but the hash itself. -/
def auditEventHash (platform : Platform) (event : AuditEvent) : String :=
  platform.sha256Hex (platform.auditPayload { event with eventHash := "" })

/-- The fields `appendAuditEvent` fills in. -/
def sealAuditEvent (platform : Platform) (event : AuditEvent) (sequence : Nat)
    (createdAt : Time) (previousHash : String) : AuditEvent :=
  let event := { event with
    eventID := auditEventID sequence
    createdAt := createdAt
    previousHash := previousHash }
  { event with eventHash := auditEventHash platform event }

/-- `appendAuditEvent`, with the clock reading it makes. -/
def appendAuditEvent (platform : Platform) (event : AuditEvent) (now : Time) :
    Tx AuditEvent := do
  let sequence ← nextSequence sequenceAudit
  let lastHash ← getJSON .auditHead
  let event := sealAuditEvent platform event sequence now (lastHash.getD "")
  setJSON (.auditEvent event.eventID) event
  setJSON .auditHead event.eventHash
  pure event

def validGovernanceBypassAudit (audit : AuditContext) : Bool :=
  trimSpace audit.reason ≠ "" && trimSpace audit.principal.accessKeyID ≠ ""

def governanceBypassAuditEvent (audit : AuditContext) (action bucketID key versionID : String)
    (details : StringMap) : AuditEvent :=
  { action := action, bucketID := bucketID, key := key, versionID := versionID,
    requestID := audit.requestID, reason := trimSpace audit.reason, principal := audit.principal,
    details := details }

/-- `transitionAuditEvent`: the action stands in for a missing reason. -/
def transitionAuditEvent (audit : AuditContext) (action bucketID key versionID : String)
    (details : StringMap) : AuditEvent :=
  let reason := trimSpace audit.reason
  { action := action, bucketID := bucketID, key := key, versionID := versionID,
    requestID := audit.requestID, reason := if reason = "" then action else reason,
    principal := audit.principal, details := details }

end Namros.Source
