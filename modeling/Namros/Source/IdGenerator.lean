import Namros.Source.Repository

/-!
# Generated ids

`ProcessGenerator` of `internal/meta/id/id.go`. `NewID` holds the generator's lock from the reading
of the clock to that of the entropy source, and gives it up between two rounds that find no free
timestamp, so a round is one step.
-/

namespace Namros.Source

open Library

def base36Alphabet : Bytes := bytes "0123456789abcdefghijklmnopqrstuvwxyz"

def crockfordAlphabet : Bytes := bytes "0123456789abcdefghjkmnpqrstvwxyz"

def formatBase36 (value : UInt64) : Nat → Bytes
  | 0 => []
  | width + 1 => formatBase36 (value / 36) width ++ [base36Alphabet.getD (value % 36).toNat 0]

/-- The `ProcessGenerator` between two holders of its lock. -/
structure ProcessGenerator where
  generatorID : Bytes
  lastUnixNano : UInt64 := 0
  sequence : UInt64 := 0

def maxSequence : UInt64 := 36 * 36 * 36 * 36 - 1

/-- One round of `nextTimestampAndSequenceLocked`, with the clock's reading. Without an answer the
lock is given up for a moment and the next round follows. -/
def ProcessGenerator.nextTimestampAndSequence (g : ProcessGenerator) (now : Int64) :
    Option (Except String (UInt64 × UInt64)) × ProcessGenerator :=
  if now < 0 then (some (.error "id clock before unix epoch"), g)
  else
    let timestamp := now.toUInt64
    if timestamp > g.lastUnixNano then
      (some (.ok (timestamp, 0)), { g with lastUnixNano := timestamp, sequence := 0 })
    else if timestamp = g.lastUnixNano ∧ g.sequence < maxSequence then
      (some (.ok (timestamp, g.sequence + 1)), { g with sequence := g.sequence + 1 })
    else (none, g)

/-- The id that `NewID` makes of a stamp and of what it has read from the entropy source. -/
def formatID (generatorID : Bytes) (kind : String) (timestamp sequence : UInt64)
    (entropy : Bytes) : Bytes :=
  (bytes "_").intercalate [bytes kind, formatBase36 timestamp 13, generatorID,
    formatBase36 sequence 4, entropy.map fun value => crockfordAlphabet.getD (value &&& 31).toNat 0]

/-- A call of `NewID`. -/
inductive NewIDCall
  | start
  | waiting
  | returned (answer : Except String Bytes)

/-- What a call does while it holds the lock. -/
def newIDRound (kind : String) (g : ProcessGenerator) (now : Int64)
    (entropy : Except String Bytes) : NewIDCall × ProcessGenerator :=
  match g.nextTimestampAndSequence now with
  | (none, g) => (.waiting, g)
  | (some assigned, g) => (.returned (do
      let (timestamp, sequence) ← assigned
      let read ← entropy.mapError ("generate id entropy: " ++ ·)
      pure (formatID g.generatorID kind timestamp sequence read)), g)

def NewIDCall.step (kind : String) (g : ProcessGenerator) (now : Int64)
    (entropy : Except String Bytes) : NewIDCall → NewIDCall × ProcessGenerator
  | .start =>
    if kind ∉ ["bkt", "ver", "upl"] then
      (.returned (.error ("invalid id kind " ++ quoted kind)), g)
    else newIDRound kind g now entropy
  | .waiting => newIDRound kind g now entropy
  | .returned answer => (.returned answer, g)

end Namros.Source
