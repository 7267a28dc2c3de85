import Mathlib.Tactic.Common
import Namros.Library.ByteString

/-!
# Go strings

A Go string is any byte string. `unicode/utf8` reads it rune by rune, and `encoding/json`
stores it with U+FFFD in place of every byte that starts no rune, so that a string that is
not UTF-8 is read back as another text.
-/

namespace Namros.Library

/-- The bytes of a text. -/
def bytes (text : String) : Bytes := text.toByteArray.data.toList

theorem bytes_inj {s t : String} : bytes s = bytes t ↔ s = t := by
  refine ⟨fun same => ?_, fun same => congrArg bytes same⟩
  have arrays : s.toByteArray = t.toByteArray := ByteArray.ext (Array.ext' same)
  exact String.toByteArray_inj.mp arrays

@[simp] theorem bytes_eq_nil {s : String} : bytes s = [] ↔ s = "" := by
  rw [show ([] : Bytes) = bytes "" from rfl, bytes_inj]

/-- The text of a byte string that is UTF-8. -/
def textOf (x : Bytes) : Option String := String.fromUTF8? ⟨⟨x⟩⟩

theorem textOf_bytes (text : String) : textOf (bytes text) = some text := by
  unfold textOf bytes String.fromUTF8?
  rw [dif_pos (show (ByteArray.mk ⟨text.toByteArray.data.toList⟩).IsValidUTF8 from text.isValidUTF8)]
  rfl

/-! ## Runes -/

/-- The rune that `utf8.DecodeRuneInString` reads at the start of a string, and none where it
reports an error. -/
def firstRune (x : Bytes) : Option Char := ByteArray.utf8DecodeChar? ⟨⟨x⟩⟩ 0

/-- A rune that was read is written as the bytes it was read from. -/
theorem exists_of_firstRune {x : Bytes} {r : Char} (read : firstRune x = some r) :
    ∃ rest, x = String.utf8EncodeChar r ++ rest := by
  obtain ⟨rest, split⟩ := ByteArray.exists_of_utf8DecodeChar?_eq_some read
  refine ⟨rest.data.toList, ?_⟩
  simpa using congrArg (fun b : ByteArray => b.data.toList) split

theorem firstRune_encoded (r : Char) (x : Bytes) :
    firstRune (String.utf8EncodeChar r ++ x) = some r := by
  have whole : (⟨⟨String.utf8EncodeChar r ++ x⟩⟩ : ByteArray) =
      (String.utf8EncodeChar r).toByteArray ++ ⟨⟨x⟩⟩ := by
    apply ByteArray.ext
    apply Array.ext'
    simp
  rw [firstRune, whole, ByteArray.utf8DecodeChar?_utf8EncodeChar_append]

theorem utf8EncodeChar_low {r : Char} (low : r.toNat < 0x80) :
    String.utf8EncodeChar r = [UInt8.ofNat r.toNat] := by
  change r.val.toNat < 128 at low
  unfold String.utf8EncodeChar
  dsimp only
  rw [if_pos (by omega)]
  rfl

/-- A rune from `0x80` on is written in bytes from `0x80` on. -/
theorem utf8EncodeChar_high {r : Char} (high : 0x80 ≤ r.toNat) :
    ∀ d ∈ String.utf8EncodeChar r, 0x80 ≤ d := by
  have wide {n : Nat} (low : 128 ≤ n) (small : n < 256) : 0x80 ≤ UInt8.ofNat n := by
    rw [UInt8.le_iff_toNat_le, UInt8.toNat_ofNat', Nat.mod_eq_of_lt small]
    exact low
  change 128 ≤ r.val.toNat at high
  unfold String.utf8EncodeChar
  dsimp only
  rw [if_neg (by omega)]
  split
  · simp only [List.forall_mem_cons, List.not_mem_nil, false_implies, implies_true, and_true]
    exact ⟨wide (by omega) (by omega), wide (by omega) (by omega)⟩
  split
  · simp only [List.forall_mem_cons, List.not_mem_nil, false_implies, implies_true, and_true]
    exact ⟨wide (by omega) (by omega), wide (by omega) (by omega), wide (by omega) (by omega)⟩
  · simp only [List.forall_mem_cons, List.not_mem_nil, false_implies, implies_true, and_true]
    exact ⟨wide (by omega) (by omega), wide (by omega) (by omega), wide (by omega) (by omega),
      wide (by omega) (by omega)⟩

/-! ## What is stored -/

/-- The runes `encoding/json` writes for a string, for at most so many bytes. -/
def jsonRunes : Nat → Bytes → List Char
  | 0, _ | _, [] => []
  | fuel + 1, c :: rest =>
    match firstRune (c :: rest) with
    | some r => r :: jsonRunes fuel ((c :: rest).drop r.utf8Size)
    | none => Char.ofNat 0xfffd :: jsonRunes fuel rest

/-- A Go string: a text, or bytes that are not UTF-8. -/
inductive GoString
  | text (read : String)
  | stray (raw : Bytes) (invalid : textOf raw = none)
deriving DecidableEq

namespace GoString

instance : Coe String GoString := ⟨text⟩

instance : Inhabited GoString := ⟨text ""⟩

def bytes : GoString → Bytes
  | text read => Library.bytes read
  | stray raw _ => raw

def ofBytes (raw : Bytes) : GoString :=
  match read : textOf raw with
  | some found => text found
  | none => stray raw read

/-- The text that a JSON encoding and its decoding leave of a string. -/
def jsonText : GoString → String
  | text read => read
  | stray raw _ => String.ofList (jsonRunes raw.length raw)

/-- The bytes of the string are UTF-8. -/
def Valid (x : GoString) : Prop := textOf x.bytes ≠ none
deriving Decidable

theorem Valid.eq_text {x : GoString} (valid : x.Valid) : x = text x.jsonText := by
  cases x with
  | text read => rfl
  | stray raw invalid => exact absurd invalid valid

theorem ofBytes_bytes (x : GoString) : ofBytes x.bytes = x := by
  unfold ofBytes
  cases x with
  | text read =>
    split
    · next read => simpa [textOf_bytes, bytes] using read.symm
    · next read => simp [textOf_bytes, bytes] at read
  | stray raw invalid =>
    split
    · next read => simp [bytes, invalid] at read
    · rfl

theorem bytes_inj {x y : GoString} : x.bytes = y.bytes ↔ x = y :=
  ⟨fun same => by rw [← ofBytes_bytes x, same, ofBytes_bytes], congrArg bytes⟩

end GoString

end Namros.Library
