import Namros.Library.Transaction
import Namros.Library.Trimming
import Namros.Source.Keyspace

/-!
# Repository transactions

Every operation of `internal/meta/kvrepo/repository.go` runs one closure in one store
transaction. A closure is a `Tx`: it reads and writes the store and either returns its
result or fails with one of the errors of `internal/meta/errors.go`, in which case nothing
is written. What a call takes from outside the store is explicit: the clock readings and
generated ids of the call (`CallContext`), and the functions of other packages (`Platform`).

Records are typed values. An operation takes the bytes of an object key as `path`; the key in
its request is the text that `json.Marshal` makes of them, which is what records hold.

Not modelled: cancellation of the request context, a closed repository, stored values that
cannot be decoded, and values that `encoding/json` refuses (times outside the years 0 to 9999),
for which the operation fails without a write.
-/

namespace Namros.Source

open Library

/-- The errors of `errors.go` with the text that follows the sentinel. -/
inductive Error
  | notFound
  | alreadyExists (detail : String)
  | bucketNotEmpty
  | casConflict (detail : String)
  | invalidArgument (detail : String)
  | objectManifestTooLarge (valueBytes : Nat)
  | objectLocked
  | kmsKeyUnavailable (detail : String)
  | quotaExceeded (detail : String)
  | unavailable (detail : String)
  | workerPaused
  | workerCanceled
deriving DecidableEq

inductive IDKind
  | bucket
  | version
  | upload
deriving DecidableEq

/-- What one call reads from the clock and the id generator: the reading of `r.now()` at its
`n`-th program point that reads the clock, and its `n`-th `NewID` of a kind (`none` when the
generator fails). -/
structure CallContext where
  now : Nat → Time
  newID : IDKind → Nat → Option String

/-- Functions of other packages: SHA-256 and MD5 in hexadecimal, Unicode case folding, the
RFC 3339 text of a time, the JSON text of an audit payload, and the JSON sizes the manifest
planner measures. -/
structure Platform where
  sha256Hex : Bytes → String
  md5Hex : Bytes → String
  toLower : String → String
  equalFold : String → String → Bool
  rfc3339Nano : Time → String
  auditPayload : AuditEvent → Bytes
  objectVersionBytes : ObjectVersion → Nat
  manifestChunkBytes : ObjectManifestChunk → Nat

/-- A platform to evaluate the model with: a hash is the text itself and every record fits. -/
def plainPlatform : Platform where
  sha256Hex x := String.ofList (x.map fun c => Char.ofNat c.toNat)
  md5Hex x := String.ofList (x.map fun c => Char.ofNat c.toNat)
  toLower text := text
  equalFold := (· == ·)
  rfc3339Nano time := toString time
  auditPayload event := bytes (event.eventID ++ event.action ++ event.previousHash)
  objectVersionBytes _ := 0
  manifestChunkBytes _ := 0

def idCollisionRetryLimit : Nat := 8

/-- The closure of one operation. -/
abbrev Tx := Transaction Store Error

def getJSON (k : Key) : Tx (Option k.Value) := fun s => .ok (s.lookup k, s)

def setJSON (k : Key) (value : k.Value) : Tx Unit := fun s => .ok ((), s.insert k value)

/-- `tx.Delete`. -/
def deleteKey (k : Key) : Tx Unit := fun s => .ok ((), s.erase k)

/-- The id loops of the source: the first id from the `attempt`-th on under which no record is
stored. -/
def nextFreeID (newID : Nat → Option String) (recordKey : String → Key)
    (generate exhausted : String) : Nat → Nat → Tx String
  | 0, _ => throw (.unavailable exhausted)
  | remaining + 1, attempt => do
    let id ← Transaction.orFail (newID attempt) (.unavailable generate)
    let taken ← getJSON (recordKey id)
    match taken with
    | some _ => nextFreeID newID recordKey generate exhausted remaining (attempt + 1)
    | none => pure id

@[simp] theorem run_getJSON (k : Key) (s : Store) : (getJSON k).run s = .ok (s.lookup k, s) := rfl

/-- Page size of `scanRaw`. -/
def scanPageSize : Nat := 128

/-- The records a scan of `s` under a string prefix meets, in key order. `decode` picks the
records of the scanned family. -/
def recordsUnder {α : Type} (decode : (k : Key) → k.Value → Option α) (p : Bytes) (s : Store) :
    List (Key × α) :=
  (OrderedStore.scan keyCode p scanPageSize s).filterMap fun k =>
    ((s.lookup k).bind (decode k)).map fun value => (k, value)

/-- `scanJSONWithKey`; an early stop of the scan is an early stop in the list. -/
def scanRecords {α : Type} (decode : (k : Key) → k.Value → Option α) (p : Bytes) :
    Tx (List (Key × α)) := fun s => .ok (recordsUnder decode p s, s)

@[simp] theorem run_scanRecords {α : Type} (decode : (k : Key) → k.Value → Option α) (p : Bytes)
    (s : Store) : (scanRecords decode p).run s = .ok (recordsUnder decode p s, s) := rfl

/-- The version records among scanned keys. -/
def asObjectVersion : (k : Key) → k.Value → Option ObjectVersion
  | .objectVersion _ _ _, version => some version
  | _, _ => none

/-- A text in double quotes, as `%q` prints it up to escapes. -/
def quoted (text : String) : String := "\"" ++ text ++ "\""

/-- `strings.TrimSpace` trims the characters with the Unicode property White_Space. -/
def isSpace (c : Char) : Bool :=
  c.toNat ∈ [0x09, 0x0a, 0x0b, 0x0c, 0x0d, 0x20, 0x85, 0xa0, 0x1680, 0x2000, 0x2001, 0x2002,
    0x2003, 0x2004, 0x2005, 0x2006, 0x2007, 0x2008, 0x2009, 0x200a, 0x2028, 0x2029, 0x202f,
    0x205f, 0x3000]

def trimSpace (text : String) : String := String.ofList (trimText isSpace text.toList)

section Lookup

variable {s : Store} {j k : Key}

@[simp] theorem lookup_insert_self (v : k.Value) : (s.insert k v).lookup k = some v :=
  AList.lookup_insert s

theorem lookup_insert_ne (v : k.Value) (differs : j ≠ k) :
    (s.insert k v).lookup j = s.lookup j :=
  AList.lookup_insert_ne differs

@[simp] theorem lookup_erase_self : (s.erase k).lookup k = none := AList.lookup_erase k s

theorem lookup_erase_ne (differs : j ≠ k) : (s.erase k).lookup j = s.lookup j :=
  AList.lookup_erase_ne differs

theorem mem_of_lookup {v : k.Value} (found : s.lookup k = some v) : k ∈ s :=
  AList.lookup_isSome.mp (by rw [found]; rfl)

end Lookup

end Namros.Source
