import Namros.Source.SegmentReading

/-!
# Addresses in segment ids

Both SBS stores put a segment's address into its id: backend, volume and three decimal numbers,
separated by colons (`internal/storage/sbs/store.go:649-680`,
`internal/storage/sbs/physical_store.go:847-874`). They also share `mapSBSError`
(`internal/storage/sbs/store.go:697-716`).
-/

namespace Namros.Source

/-! ## Errors of contexts and of the volume client -/

/-- `ctx.Err()`. -/
inductive ContextError
  | canceled
  | deadlineExceeded
deriving DecidableEq

def ContextError.error : ContextError → StorageError
  | .canceled => .other "context canceled"
  | .deadlineExceeded => .other "context deadline exceeded"

inductive SBSErrorCode
  | notFound
  | badRequest
  | unavailable
  | timeout
  | other
deriving DecidableEq

/-- An error of the client: an `SBSError`, one of the two sentinels the stores ask for
(`ErrOutOfRange`, `ErrBadDataLength`), or any other. -/
inductive ClientError
  | sbs (code : SBSErrorCode) (text : String)
  | outOfRange (text : String)
  | badDataLength (text : String)
  | other (text : String)
deriving DecidableEq

/-- `err.Error()`. -/
def ClientError.text : ClientError → String
  | .sbs _ text => text
  | .outOfRange text => text
  | .badDataLength text => text
  | .other text => text

def mapSBSError : ClientError → StorageError
  | .sbs .notFound text => .missing text
  | .sbs .badRequest text => .invalidArgument text
  | .sbs .unavailable text => .unavailable text
  | .sbs .timeout text => .unavailable text
  | .sbs .other text => .other text
  | .outOfRange text => .invalidArgument text
  | .badDataLength text => .invalidArgument text
  | .other text => .other text

/-! ## Ids -/

/-- `strconv.ParseUint(text, 10, bits)`. -/
def parseUint (bits : Nat) (text : List Char) : Option Nat :=
  if text = [] ∨ ¬ text.all Char.isDigit then none
  else
    let value := Nat.ofDigitChars 10 text 0
    if value < 2 ^ bits then some value else none

/-- The format of one store: its backend name, the width of the second number, and what it
reports for an id that has another form or a part that is no number. -/
structure AddressFormat where
  backend : String
  secondBits : Nat
  invalidID : String
  invalidFirst : String
  invalidSecond : String
  invalidThird : String

/-- The parts of an id. -/
structure AddressParts where
  volumeID : String
  first : Nat
  second : Nat
  third : Nat
deriving DecidableEq

/-- The id of an address. -/
def AddressFormat.encode (format : AddressFormat) (parts : AddressParts) : String :=
  String.ofList ([':'].intercalate
    [format.backend.toList, parts.volumeID.toList, (toString parts.first).toList,
     (toString parts.second).toList, (toString parts.third).toList])

/-- The address of an id. -/
def AddressFormat.decode (format : AddressFormat) (value : String) :
    Except StorageError AddressParts :=
  match value.toList.splitOn ':' with
  | [backend, volumeID, first, second, third] =>
    if String.ofList backend ≠ format.backend then .error (.invalidArgument format.invalidID)
    else
      match parseUint 64 first, parseUint format.secondBits second, parseUint 64 third with
      | none, _, _ => .error (.invalidArgument format.invalidFirst)
      | _, none, _ => .error (.invalidArgument format.invalidSecond)
      | _, _, none => .error (.invalidArgument format.invalidThird)
      | some first, some second, some third =>
        .ok { volumeID := String.ofList volumeID, first := first, second := second,
              third := third }
  | _ => .error (.invalidArgument format.invalidID)

/-! ## Round trip -/

theorem toString_toList (n : Nat) : (toString n).toList = Nat.toDigits 10 n := by
  rw [Nat.toString_eq_ofList_toDigits, String.toList_ofList]

theorem parseUint_toString {bits n : Nat} (small : n < 2 ^ bits) :
    parseUint bits (toString n).toList = some n := by
  have digits : (Nat.toDigits 10 n).all Char.isDigit = true :=
    List.all_eq_true.mpr fun c member => Nat.isDigit_of_mem_toDigits (by decide) (by decide) member
  simp [parseUint, Nat.toDigits_ne_nil, digits, Nat.ofDigitChars_ten_toDigits, small]

theorem colon_notMem_toString (n : Nat) : ':' ∉ (toString n).toList := by
  rw [toString_toList]
  intro member
  have digit := Nat.isDigit_of_mem_toDigits (by decide) (by decide) member
  exact absurd digit (by decide)

variable {format : AddressFormat} {parts : AddressParts}

/-- An id leads back to its address. -/
theorem AddressFormat.decode_encode (backend : ':' ∉ format.backend.toList)
    (volume : ':' ∉ parts.volumeID.toList) (first : parts.first < 2 ^ 64)
    (second : parts.second < 2 ^ format.secondBits) (third : parts.third < 2 ^ 64) : format.decode
    (format.encode parts) = .ok parts := by
  unfold AddressFormat.decode AddressFormat.encode
  rw [String.toList_ofList, List.splitOn_intercalate]
  · simp only [String.ofList_toList, ne_eq, not_true_eq_false, if_false,
      parseUint_toString first, parseUint_toString second, parseUint_toString third]
  · simp only [List.forall_mem_cons]
    exact ⟨backend, volume, colon_notMem_toString _, colon_notMem_toString _,
      colon_notMem_toString _, fun _ none => by cases none⟩
  · simp

theorem notMem_of_mem_splitOn {c : Char} {text piece : List Char}
    (member : piece ∈ text.splitOn c) :
    c ∉ piece := by
  induction text generalizing piece with
  | nil =>
    simp only [List.splitOn_nil, List.mem_singleton] at member
    simp [member]
  | cons d text ih =>
    simp only [List.splitOn, List.splitOnP_cons_eq_if_modifyHead] at member ih
    split at member
    · rcases List.mem_cons.mp member with rfl | member
      · simp
      · exact ih member
    · next other =>
      cases pieces : List.splitOnP (fun x => x == c) text with
      | nil => simp [pieces] at member
      | cons first others =>
        rw [pieces] at member ih
        rcases List.mem_cons.mp member with rfl | member
        · intro inside
          rcases List.mem_cons.mp inside with rfl | inside
          · exact other BEq.rfl
          · exact ih List.mem_cons_self inside
        · exact ih (List.mem_cons_of_mem _ member)

/-- An id that has an address has four colons. -/
theorem AddressFormat.count_of_decode {value : String} (decoded : format.decode value = .ok parts) :
    value.toList.count ':' = 4 := by
  unfold AddressFormat.decode at decoded
  split at decoded
  · next backend volumeID first second third pieces =>
    have text : [':'].intercalate (value.toList.splitOn ':') = value.toList :=
      List.intercalate_splitOn ':'
    have absent : ∀ piece ∈ [backend, volumeID, first, second, third], piece.count ':' = 0 :=
      fun piece member => List.count_eq_zero.mpr (notMem_of_mem_splitOn (pieces ▸ member))
    rw [pieces] at text
    rw [← text]
    simp only [List.forall_mem_cons] at absent
    simp [List.intercalate, absent]
  · cases decoded

/-- An id leads back to an address only if its volume has no colon. -/
theorem AddressFormat.colon_notMem_of_decode {parts' : AddressParts}
    (decoded : format.decode (format.encode parts) = .ok parts') : ':' ∉ parts.volumeID.toList := by
  have count := format.count_of_decode decoded
  rw [AddressFormat.encode, String.toList_ofList] at count
  simp [List.intercalate] at count
  exact List.count_eq_zero.mp (by omega)

/-- What `decode` reports. -/
theorem AddressFormat.decode_error {value : String} {e : StorageError}
    (failed : format.decode value = .error e) : ∃ detail, e = .invalidArgument detail := by
  unfold AddressFormat.decode at failed
  split at failed
  · split at failed
    · cases failed
      exact ⟨_, rfl⟩
    · split at failed <;> cases failed <;> exact ⟨_, rfl⟩
  · cases failed
    exact ⟨_, rfl⟩

end Namros.Source
