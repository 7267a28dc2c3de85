import Mathlib.Data.Prod.Lex
import Namros.Source.Keyspace

/-!
# The canonical query string

`canonicalQueryString` and `awsPercentEncode` of `auth/sigv4/canonical.go`.
-/

namespace Namros.Source

open Library

def isUnreserved (r : Nat) : Bool :=
  (0x41 ≤ r && r ≤ 0x5a) || (0x61 ≤ r && r ≤ 0x7a) || (0x30 ≤ r && r ≤ 0x39) ||
    r == 0x2d || r == 0x5f || r == 0x2e || r == 0x7e

/-- `%%%02X`. -/
def percentByte (c : UInt8) : Bytes := [0x25, hexDigit (c / 16), hexDigit (c % 16)]

/-- The loop of `awsPercentEncode`, for at most so many rounds. -/
def awsPercentEncodeFrom : Nat → Bytes → Bytes
  | 0, _ | _, [] => []
  | fuel + 1, c :: rest =>
    match firstRune (c :: rest) with
    | none => percentByte c ++ awsPercentEncodeFrom fuel rest
    | some r =>
      (if isUnreserved r.toNat then String.utf8EncodeChar r
        else (String.utf8EncodeChar r).flatMap percentByte) ++
        awsPercentEncodeFrom fuel ((c :: rest).drop r.utf8Size)

def awsPercentEncode (value : Bytes) : Bytes := awsPercentEncodeFrom value.length value

/-- The pairs of a query in the order its map is ranged over. -/
def queryPairs (values : List (Bytes × List Bytes)) (excludeSignature : Bool) :
    List (Bytes ×ₗ Bytes) :=
  (values.filter fun entry => ¬ (excludeSignature ∧ entry.1 = bytes "X-Amz-Signature")).flatMap
    fun entry => (if entry.2 = [] then [[]] else entry.2).map fun value => toLex (entry.1, value)

/-- Encoded pairs joined with `=` and `&`. -/
def joinPairs (pairs : List (Bytes ×ₗ Bytes)) : Bytes :=
  [0x26].intercalate (pairs.map fun pair => (ofLex pair).1 ++ 0x3d :: (ofLex pair).2)

def canonicalQueryString (values : List (Bytes × List Bytes)) (excludeSignature : Bool) : Bytes :=
  joinPairs (((queryPairs values excludeSignature).insertionSort (· ≤ ·)).map fun pair =>
    toLex (awsPercentEncode (ofLex pair).1, awsPercentEncode (ofLex pair).2))

end Namros.Source
