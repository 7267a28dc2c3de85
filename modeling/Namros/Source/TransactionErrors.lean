import Mathlib.Data.List.Infix
import Namros.Source.Repository

/-!
# Transaction errors of the TiKV store

`runTxn`, `runWithRetry` and the error classification of `internal/meta/tikv/kv.go:244-265` and
`398-497`. An error is what the code can ask of it: its text and the sentinels `errors.Is` finds
in it. A failed attempt is repeated, or its error is renamed, on the strength of both.
-/

namespace Namros.Source

/-- The sentinels of `internal/meta/errors.go`. -/
inductive DomainError
  | notFound
  | alreadyExists
  | bucketNotEmpty
  | casConflict
  | invalidArgument
  | objectManifestTooLarge
  | objectLocked
  | kmsKeyUnavailable
  | quotaExceeded
  | unavailable
  | workerPaused
  | workerCanceled
deriving DecidableEq

/-- The text of a sentinel. -/
def DomainError.text : DomainError → String
  | .notFound => "not found"
  | .alreadyExists => "already exists"
  | .bucketNotEmpty => "bucket not empty"
  | .casConflict => "cas conflict"
  | .invalidArgument => "invalid argument"
  | .objectManifestTooLarge => "object manifest too large"
  | .objectLocked => "object is protected by object lock"
  | .kmsKeyUnavailable => "kms key unavailable"
  | .quotaExceeded => "quota exceeded"
  | .unavailable => "metadata unavailable"
  | .workerPaused => "worker paused"
  | .workerCanceled => "worker canceled"

/-- A Go error: `Error()`, and the sentinels in its tree. -/
structure GoError where
  text : String
  domains : List DomainError := []
  /-- `context.Canceled` or `context.DeadlineExceeded`. -/
  contextDone : Bool := false
deriving DecidableEq

/-- `errors.Is(e, d)`. -/
def GoError.wraps (e : GoError) (d : DomainError) : Prop := d ∈ e.domains

/-- The sentinel itself. -/
def DomainError.raised (d : DomainError) : GoError := { text := d.text, domains := [d] }

/-- `fmt.Errorf("%w: " + detail, d)`. -/
def DomainError.detailed (d : DomainError) (detail : String) : GoError :=
  { text := d.text ++ ": " ++ detail, domains := [d] }

/-- `strings.Contains`. -/
def containsText (text token : String) : Bool := token.toList <:+: text.toList

/-! ## Classification -/

def conflictTokens : List String := ["write conflict", "optimistic"]

def transientTokens : List String :=
  ["backoff", "connection refused", "connection reset", "epoch not match", "not leader",
    "region is unavailable", "rpc error", "server is busy", "stale epoch",
    "temporarily unavailable", "transport is closing", "try again", "unavailable"]

/-- The domain errors `shouldRetryTransactionError` never retries. -/
def settledDomains : List DomainError :=
  [.invalidArgument, .notFound, .alreadyExists, .bucketNotEmpty, .casConflict]

section
variable (toLower : String → String)

/-- `isWriteConflict`, where `toLower` is `strings.ToLower`. -/
def isWriteConflict (e : GoError) : Bool :=
  conflictTokens.any (containsText (toLower e.text))

/-- A context error or a domain error that is never retried. -/
def GoError.settled (e : GoError) : Bool :=
  e.contextDone || settledDomains.any (· ∈ e.domains)

def shouldRetryTransactionError (e : GoError) : Bool :=
  if e.settled then false
  else if isWriteConflict toLower e then true
  else transientTokens.any (containsText (toLower e.text))

def normalizeTransactionError (e : GoError) : GoError :=
  if isWriteConflict toLower e then DomainError.casConflict.raised
  else if shouldRetryTransactionError toLower e then
    -- The error itself is formatted with %v, so nothing of it is wrapped.
    DomainError.unavailable.detailed e.text
  else e

/-! ## Attempts -/

structure RetryPolicy where
  maxAttempts : Nat

def defaultRetryMaxAttempts : Nat := 3

/-- The attempts of `normalizeRetryPolicy`; `validateRetryPolicy` admits no negative number. -/
def RetryPolicy.attempts (policy : RetryPolicy) : Nat :=
  if policy.maxAttempts = 0 then defaultRetryMaxAttempts else policy.maxAttempts

/-- What the attempts of one call meet, by the number of the attempt: the context before the
attempt, `Begin`, `Commit`, and the pause after it. -/
structure TransactionEnvironment where
  contextErr : Nat → Option GoError
  begin : Nat → Option GoError
  commit : Nat → Option GoError
  sleep : Nat → Option GoError

/-- One attempt of `runTxn`: how often the closure ran, and the error. -/
def attemptTxn (env : TransactionEnvironment) (closure : Nat → Option GoError) (attempt : Nat) :
    Nat × Option GoError :=
  match env.begin attempt with
  | some e => (0, some e)
  | none =>
    match closure attempt with
    | some e => (1, some e)
    | none => (1, env.commit attempt)

/-- The loop of `runWithRetry`, with the attempts that are left. -/
def retryFrom (maxAttempts : Nat) (env : TransactionEnvironment)
    (closure : Nat → Option GoError) : Nat → Nat → Option GoError → Nat × Option GoError
  | 0, _, lastErr => (0, lastErr.map (normalizeTransactionError toLower))
  | left + 1, attempt, _ =>
    match env.contextErr attempt with
    | some e => (0, some e)
    | none =>
      match attemptTxn env closure attempt with
      | (ran, none) => (ran, none)
      | (ran, some e) =>
        if maxAttempts ≤ attempt ∨ ¬ shouldRetryTransactionError toLower e then
          (ran, some (normalizeTransactionError toLower e))
        else
          match env.sleep attempt with
          | some stopped => (ran, some stopped)
          | none =>
            let (more, result) := retryFrom maxAttempts env closure left (attempt + 1) (some e)
            (ran + more, result)

/-- `runTxn`: how often the closure ran, and the error the caller gets. -/
def runTxn (policy : RetryPolicy) (env : TransactionEnvironment)
    (closure : Nat → Option GoError) : Nat × Option GoError :=
  retryFrom toLower policy.attempts env closure policy.attempts 1 none

end

end Namros.Source
