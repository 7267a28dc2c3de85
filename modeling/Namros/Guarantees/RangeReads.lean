import Namros.Source.RangeRequests

/-!
# Ranges of an object

What the gateway's readers return for a range of an object, from what they return for a range of
each of its segments, and the `Range` headers that ask for one.
-/

namespace Namros.Guarantees

open Library Source

/-! ## The walk over the segments -/

section

variable {σ : Type} {store : SegmentStore σ} {encryption : Option DecryptSegment} {g : σ}

/-- The gateway reads every part of a segment as that part of the given bytes. -/
structure Serves (store : SegmentStore σ) (encryption : Option DecryptSegment) (g : σ)
    (ref : SegmentRef) (bytes : List UInt8) : Prop where
  size : bytes.length = (segmentLogicalSize ref).toNat
  read : ∀ off length : UInt64, 0 < length.toNat → off.toNat + length.toNat ≤ bytes.length →
    ∃ reader, openSegmentReader store encryption ref off length g = .ok reader ∧
      reader.content = (bytes.drop off.toNat).take length.toNat

/-- No subtraction of the walk goes below zero: each is by at most what it is taken from. -/
def WalkInRange : List SegmentRef → UInt64 → UInt64 → Prop
  | [], _, _ => True
  | ref :: refs, remainingOffset, remainingLength =>
    remainingLength ≠ 0 →
      let logicalSize := segmentLogicalSize ref
      if remainingOffset ≥ logicalSize then
        WalkInRange refs (remainingOffset - logicalSize) remainingLength
      else
        let available := logicalSize - remainingOffset
        let readLength := if available > remainingLength then remainingLength else available
        remainingOffset ≤ logicalSize ∧ readLength ≤ remainingLength ∧
          WalkInRange refs 0 (remainingLength - readLength)

theorem walk_in_range (refs : List SegmentRef) (off length : UInt64) :
    WalkInRange refs off length := by
  induction refs generalizing off length with
  | nil => trivial
  | cons ref refs ih =>
    intro _
    dsimp only
    split
    · exact ih _ _
    · next begins =>
      refine ⟨UInt64.le_of_lt (UInt64.not_le.mp begins), ?_, ih _ _⟩
      split
      · exact UInt64.le_refl _
      · next shorter => exact UInt64.not_lt.mp shorter

/-- The readers of a range inside the object return the bytes of that range. -/
theorem openReaders_slice {refs : List SegmentRef} {contents : List (List UInt8)}
    (serves : List.Forall₂ (Serves store encryption g) refs contents) (off length : UInt64)
    (inside : off.toNat + length.toNat ≤ contents.flatten.length) :
    ∃ readers, openReaders store encryption g refs off length = .ok (readers, 0) ∧
      readers.flatMap SegmentReader.content =
        (contents.flatten.drop off.toNat).take length.toNat := by
  induction serves generalizing off length with
  | nil =>
    have zero : length = 0 := UInt64.toNat_inj.mp (by simp at inside; simp [inside.2])
    exact ⟨[], by rw [openReaders, zero], by simp⟩
  | @cons ref bytes refs contents first rest ih =>
    rw [List.flatten_cons, List.length_append] at inside
    rw [List.flatten_cons]
    unfold openReaders
    by_cases zero : length = 0
    · exact ⟨[], by rw [if_pos zero], by simp [zero]⟩
    have positive : 0 < length.toNat := Nat.pos_of_ne_zero (by simpa [← UInt64.toNat_inj] using zero)
    rw [if_neg zero]
    dsimp only
    by_cases behind : off ≥ segmentLogicalSize ref
    · -- the range begins behind this segment
      have passed := UInt64.le_iff_toNat_le.mp behind
      have skipped := UInt64.toNat_sub_of_le _ _ behind
      rw [← first.size] at passed skipped
      obtain ⟨readers, opened, content⟩ := ih (off - segmentLogicalSize ref) length (by omega)
      refine ⟨readers, by rw [if_pos behind, opened], ?_⟩
      rw [content, skipped, List.drop_append, List.drop_eq_nil_of_le passed, List.nil_append]
    · have taken := @readLength_inside off length _ behind
      have before := UInt64.lt_iff_toNat_lt.mp (UInt64.not_le.mp behind)
      have available := UInt64.toNat_sub_of_le _ _ (UInt64.le_iff_toNat_le.mpr before.le)
      rw [if_neg behind]
      generalize named : (if segmentLogicalSize ref - off > length then length
        else segmentLogicalSize ref - off) = readLength at taken ⊢
      -- the part that is read is the range, or reaches to the end of the segment
      have part : readLength.toNat = min length.toNat (bytes.length - off.toNat) := by
        rw [first.size, ← named]
        split
        · next shorter =>
          have := UInt64.lt_iff_toNat_lt.mp shorter
          omega
        · next longer =>
          have := UInt64.le_iff_toNat_le.mp (UInt64.not_lt.mp longer)
          omega
      rw [← first.size] at taken before
      have left := UInt64.toNat_sub_of_le length readLength
        (UInt64.le_iff_toNat_le.mpr (by omega))
      obtain ⟨reader, opened, content⟩ := first.read off readLength (by omega) taken
      obtain ⟨readers, others, rest⟩ := ih 0 (length - readLength) (by
        rw [left]
        simp only [UInt64.toNat_zero]
        omega)
      refine ⟨reader :: readers, ?_, ?_⟩
      · rw [opened, others]
        rfl
      rw [List.flatMap_cons, content, rest, left, List.drop_append_of_le_length before.le,
        List.take_append, List.length_drop, UInt64.toNat_zero, List.drop_zero]
      congr 1
      · rw [part, ← List.length_drop, ← List.take_eq_take_min]
      · congr 1
        omega

end

/-! ## The headers -/

/-- A number below `2 ^ 64` in decimal digits. -/
def Decimal (text : List Char) (n : Nat) : Prop :=
  text ≠ [] ∧ text.all Char.isDigit ∧ Nat.ofDigitChars 10 text 0 = n ∧ n < 2 ^ 64

/-- A header that asks for the bytes from `start` to `last` of an object of the given size. -/
inductive RangeOf (size : Nat) : String → Nat → Nat → Prop
  | closed {header : String} {firstText lastText : List Char} {first last : Nat}
      (written : header.toList = "bytes=".toList ++ (firstText ++ '-' :: lastText))
      (begins : Decimal firstText first) (ends : Decimal lastText last) (inside : first < size)
      (ordered : first ≤ last) : RangeOf size header first (min last (size - 1))
  | fromFirst {header : String} {firstText : List Char} {first : Nat}
      (written : header.toList = "bytes=".toList ++ (firstText ++ ['-']))
      (begins : Decimal firstText first) (inside : first < size) :
      RangeOf size header first (size - 1)
  | suffix {header : String} {countText : List Char} {count : Nat}
      (written : header.toList = "bytes=".toList ++ '-' :: countText)
      (counts : Decimal countText count) (some : 1 ≤ count) (nonempty : 1 ≤ size) :
      RangeOf size header (size - min count size) (size - 1)

variable {n : Nat}

theorem parseUint_eq_some {text : List Char} : parseUint 64 text = some n ↔ Decimal text n := by
  unfold parseUint Decimal
  by_cases form : text = [] ∨ ¬ text.all Char.isDigit = true
  · simp only [if_pos form, reduceCtorEq, false_iff]
    tauto
  push Not at form
  rw [if_neg (by tauto)]
  simp only [form.1, form.2, ne_eq, not_false_eq_true, true_and]
  split
  · next small =>
    rw [Option.some.injEq]
    constructor
    · rintro rfl
      exact ⟨rfl, small⟩
    · exact fun numeral => numeral.1
  · next large =>
    simp only [reduceCtorEq, false_iff]
    rintro ⟨rfl, small⟩
    exact large small

theorem Decimal.notMem {text : List Char} (decimal : Decimal text n) {c : Char}
    (other : c.isDigit = false) : c ∉ text := by
  intro member
  have digit := List.all_eq_true.mp decimal.2.1 c member
  rw [other] at digit
  cases digit

variable {header : String}

theorem RangeOf.bounds {size start last : Nat} (range : RangeOf size header start last) :
    start ≤ last ∧ last < size := by
  cases range <;> omega

variable {r : ByteRange}

/-- The header is taken apart at its first hyphen. -/
theorem parseRange_ok {size : UInt64} (named : header ≠ "") :
    parseRange header size = .ok r ↔
      ∃ startText endText, header.toList = "bytes=".toList ++ (startText ++ '-' :: endText) ∧
        ',' ∉ startText ++ '-' :: endText ∧ '-' ∉ startText ∧ size ≠ 0 ∧
        parseRangeParts startText endText size = .ok r := by
  have length : "bytes=".length = "bytes=".toList.length := rfl
  unfold parseRange
  rw [if_neg named]
  constructor
  · intro parsed
    split at parsed
    · cases parsed
    next accepted =>
    push Not at accepted
    obtain ⟨⟨value, written⟩, comma⟩ := accepted
    rw [← written, length, List.drop_left] at parsed comma
    cases found : Delimited.cutAt '-' value with
    | none => simp [found] at parsed
    | some parts =>
      obtain ⟨startText, endText⟩ := parts
      obtain ⟨absent, rfl⟩ := Delimited.cutAt_eq_some.mp found
      rw [found] at parsed
      dsimp only at parsed
      split at parsed
      · cases parsed
      · next nonzero => exact ⟨startText, endText, written.symm, comma, absent, nonzero, parsed⟩
  · rintro ⟨startText, endText, written, comma, absent, nonzero, parsed⟩
    have found : Delimited.cutAt '-' (startText ++ '-' :: endText) = some (startText, endText) :=
      Delimited.cutAt_eq_some.mpr ⟨absent, rfl⟩
    rw [written, length, List.drop_left, if_neg (by simpa using comma), found]
    simpa only [if_neg nonzero] using parsed

section

variable {header : String} {size : UInt64} {start last : Nat}

theorem toNat_pred (nonzero : size ≠ 0) : (size - 1).toNat = size.toNat - 1 := by
  have positive : size.toNat ≠ 0 := by simpa [← UInt64.toNat_inj] using nonzero
  exact UInt64.toNat_sub_of_le _ _ (UInt64.le_iff_toNat_le.mpr (by simp; omega))

theorem ofNat_pred (nonzero : size ≠ 0) : UInt64.ofNat (size.toNat - 1) = size - 1 := by
  rw [← toNat_pred nonzero, UInt64.ofNat_toNat]

theorem le_ofNat (small : n < 2 ^ 64) : size ≤ .ofNat n ↔ size.toNat ≤ n := by
  rw [UInt64.le_iff_toNat_le, UInt64.toNat_ofNat_of_lt' small]

/-- The number of bytes of a suffix, clipped to the size. -/
theorem ofNat_sub_clipped {count : Nat} (small : count < 2 ^ 64) :
    size - (if UInt64.ofNat count > size then size else .ofNat count) =
      .ofNat (size.toNat - min count size.toNat) := by
  have clipped : (if UInt64.ofNat count > size then size else .ofNat count).toNat =
      min count size.toNat := by
    have value := UInt64.toNat_ofNat_of_lt' small
    split
    · next more =>
      have := UInt64.lt_iff_toNat_lt.mp more
      omega
    · next less =>
      have := UInt64.le_iff_toNat_le.mp (UInt64.not_lt.mp less)
      omega
  have limit := size.toNat_lt
  rw [← UInt64.toNat_inj, UInt64.toNat_sub_of_le _ _ (UInt64.le_iff_toNat_le.mpr (by omega)),
    clipped, UInt64.toNat_ofNat_of_lt' (show _ < 2 ^ 64 by omega)]

/-- The range a header asks for is the one that is parsed. -/
theorem parseRange_of_range (range : RangeOf size.toNat header start last) :
    parseRange header size = .ok (byteRange (.ofNat start) (.ofNat last) size) := by
  have nonzero : size ≠ 0 := by
    rintro rfl
    have bounds := range.bounds
    simp at bounds
  have named : header ≠ "" := by
    rintro rfl
    cases range <;> simp at *
  rw [parseRange_ok named]
  cases range with
  | @closed firstText lastText _ last written begins ends inside ordered =>
    have small := begins.2.2.2
    have small' := ends.2.2.2
    refine ⟨firstText, lastText, written, ?_, begins.notMem rfl, nonzero, ?_⟩
    · simp [begins.notMem (c := ',') rfl, ends.notMem (c := ',') rfl]
    have accepted : ¬ (UInt64.ofNat start > .ofNat last ∨ .ofNat start ≥ size) := by
      rw [ge_iff_le, le_ofNat small, gt_iff_lt, UInt64.lt_iff_toNat_lt,
        UInt64.toNat_ofNat_of_lt' small, UInt64.toNat_ofNat_of_lt' small']
      omega
    simp only [parseRangeParts, begins.1, ends.1, parseUint_eq_some.mpr begins,
      parseUint_eq_some.mpr ends, accepted, if_false]
    congr 2
    simp only [ge_iff_le, le_ofNat small']
    split
    · rw [Nat.min_eq_right (by omega), ofNat_pred nonzero]
    · rw [Nat.min_eq_left (by omega)]
  | @fromFirst firstText _ written begins inside =>
    refine ⟨firstText, [], written, ?_, begins.notMem rfl, nonzero, ?_⟩
    · simp [begins.notMem (c := ',') rfl]
    have accepted : ¬ UInt64.ofNat start ≥ size := by
      rw [ge_iff_le, le_ofNat begins.2.2.2]
      omega
    simp only [parseRangeParts, begins.1, parseUint_eq_some.mpr begins, accepted, if_false,
      if_true, ofNat_pred nonzero]
  | @suffix countText count written counts some nonempty =>
    have small := counts.2.2.2
    refine ⟨[], countText, written, ?_, List.not_mem_nil, nonzero, ?_⟩
    · simp [counts.notMem (c := ',') rfl]
    have positive : UInt64.ofNat count ≠ 0 := by
      rw [ne_eq, ← UInt64.toNat_inj, UInt64.toNat_ofNat_of_lt' small, UInt64.toNat_zero]
      omega
    simp only [parseRangeParts, parseUint_eq_some.mpr counts, positive, if_false, if_true,
      ofNat_sub_clipped small, ofNat_pred nonzero]

/-- Every header that is accepted asks for a range. -/
theorem range_of_parseRange (named : header ≠ "") (parsed : parseRange header size = .ok r) :
    ∃ start last, RangeOf size.toNat header start last := by
  obtain ⟨startText, endText, written, -, -, nonzero, parsed⟩ := (parseRange_ok named).mp parsed
  have nonempty : size.toNat ≠ 0 := by simpa [← UInt64.toNat_inj] using nonzero
  unfold parseRangeParts at parsed
  by_cases suffix : startText = []
  · subst suffix
    cases counts : parseUint 64 endText with
    | none => simp [counts] at parsed
    | some count =>
      have decimal := parseUint_eq_some.mp counts
      have some : count ≠ 0 := by
        rintro rfl
        simp [counts] at parsed
      exact ⟨_, _, .suffix written decimal (by omega) (by omega)⟩
  rw [if_neg suffix] at parsed
  cases begins : parseUint 64 startText with
  | none => split at parsed <;> simp [begins] at parsed
  | some first =>
    have decimal := parseUint_eq_some.mp begins
    have inside : first < size.toNat := by
      by_contra beyond
      have refused : size ≤ .ofNat first := (le_ofNat decimal.2.2.2).mpr (by omega)
      split at parsed
      · simp [begins, refused] at parsed
      · cases ends : parseUint 64 endText <;> simp [begins, ends, refused] at parsed
    by_cases open_ : endText = []
    · subst open_
      exact ⟨_, _, .fromFirst written decimal inside⟩
    rw [if_neg open_, begins] at parsed
    cases ends : parseUint 64 endText with
    | none => simp [ends] at parsed
    | some last =>
      have decimal' := parseUint_eq_some.mp ends
      refine ⟨_, _, .closed written decimal decimal' inside ?_⟩
      by_contra reversed
      have refused : UInt64.ofNat last < .ofNat first := by
        rw [UInt64.lt_iff_toNat_lt, UInt64.toNat_ofNat_of_lt' decimal.2.2.2,
          UInt64.toNat_ofNat_of_lt' decimal'.2.2.2]
        omega
      simp [ends, refused] at parsed

end

/-! ## Responses -/

section

variable {σ : Type}

/-- `GetSegment` returns exactly the requested bytes of a segment. -/
def ReturnsExactly (store : SegmentStore σ) (g : σ) (ref : SegmentRef) (bytes : List UInt8) :
    Prop :=
  ∀ off length : UInt64, 0 < length.toNat → off.toNat + length.toNat ≤ bytes.length →
    ∃ reader, store.getSegment ref off length g = .ok reader ∧
      reader.content = (bytes.drop off.toNat).take length.toNat

/-- An object of unencrypted segments with the given contents. -/
structure PlainObject (store : SegmentStore σ) (g : σ) (head : ObjectHead)
    (contents : List (List UInt8)) : Prop where
  live : head.deleteMarker = false
  unencrypted : head.serverSideEncryption.algorithm ≠ .awsKMS
  plain : ∀ ref ∈ objectSegmentRefs head, ref.encryption.algorithm = ""
  sizes : (objectSegmentRefs head).map (fun ref => ref.sizeBytes.toNat) =
    contents.map List.length
  total : head.sizeBytes = contents.flatten.length
  small : contents.flatten.length < 2 ^ 63
  exact : List.Forall₂ (ReturnsExactly store g) (objectSegmentRefs head) contents

/-- What is answered where the content is read: the data budget or the audit log may refuse. -/
def answered (deps : GetObjectDeps σ) (length : UInt64)
    (response : GetObjectResponse) : GetObjectResponse :=
  if deps.reserveDataBudget length = false then .failed .slowDown
  else
    match deps.recordAccessAudit with
    | some text => .failed (.auditUnavailable text)
    | none => response

variable {deps : GetObjectDeps σ} {g : σ} {head : ObjectHead} {contents : List (List UInt8)}

theorem serves_of_plain {store : SegmentStore σ} {encryption : Option DecryptSegment}
    {refs : List SegmentRef} (plain : ∀ ref ∈ refs, ref.encryption.algorithm = "")
    (sizes : refs.map (fun ref => ref.sizeBytes.toNat) = contents.map List.length)
    (exact : List.Forall₂ (ReturnsExactly store g) refs contents) :
    List.Forall₂ (Serves store encryption g) refs contents := by
  induction exact with
  | nil => exact .nil
  | cons first rest ih =>
    obtain ⟨here, others⟩ := List.forall_mem_cons.mp plain
    obtain ⟨size, sizes⟩ := List.cons.inj sizes
    refine .cons ⟨by simp [segmentLogicalSize, here, size], ?_⟩ (ih others sizes)
    intro off length positive inside
    unfold openSegmentReader
    rw [if_pos here]
    exact first off length positive inside

theorem PlainObject.size (object : PlainObject deps.store g head contents) :
    (UInt64.ofInt head.sizeBytes).toNat = contents.flatten.length := by
  have small := object.small
  simp only [object.total, UInt64.ofInt, UInt64.toNat_ofNat']
  omega

/-- The content of a parsed range that lies inside the object. -/
theorem getObject_of_parsed (object : PlainObject deps.store g head contents)
    (parsed : parseRange header (UInt64.ofInt head.sizeBytes) = .ok r)
    (inside : r.offset.toNat + r.contentLength.toNat ≤ contents.flatten.length) :
    getObject deps head header g = answered deps r.contentLength
      (.content r.status r.contentRange r.contentLength
        ((contents.flatten.drop r.offset.toNat).take r.contentLength.toNat)) := by
  have serves : List.Forall₂ (Serves deps.store deps.encryption g) _ _ :=
    serves_of_plain object.plain object.sizes object.exact
  obtain ⟨readers, opened, content⟩ : ∃ readers,
      openObjectReaders deps.store deps.encryption head r.offset r.contentLength g = .ok readers ∧
      readers.flatMap SegmentReader.content =
        (contents.flatten.drop r.offset.toNat).take r.contentLength.toNat := by
    by_cases zero : r.contentLength = 0
    · exact ⟨[], by rw [openObjectReaders, if_pos zero], by simp [zero]⟩
    obtain ⟨readers, opened, content⟩ := openReaders_slice serves _ _ inside
    refine ⟨readers, ?_, content⟩
    rw [openObjectReaders, if_neg zero, opened]
    rfl
  simp only [getObject, object.live, Bool.false_eq_true, if_false,
    GetObjectDeps.checkDecryptAdmission, ne_eq, object.unencrypted, not_false_eq_true, if_true,
    parsed, opened, content]
  rfl

/-- A GET of an object of unencrypted segments answers an empty header with the whole object, a
header that asks for a range with exactly its bytes, and every other header with an error, unless
the data budget or the audit log refuses. The walk over the segments subtracts within bounds. -/
theorem range_get_exact {deps : GetObjectDeps σ} {g : σ} {head : ObjectHead}
    {contents : List (List UInt8)} (object : PlainObject deps.store g head contents)
    (header : String) :
    (header = "" → ∃ length : UInt64, length.toNat = contents.flatten.length ∧
      getObject deps head header g = answered deps length
        (.content 200 "" length contents.flatten)) ∧
    (∀ start last, RangeOf contents.flatten.length header start last →
      start ≤ last ∧ last < contents.flatten.length ∧
      ∃ length : UInt64, length.toNat = last - start + 1 ∧
        getObject deps head header g = answered deps length
          (.content 206 ("bytes " ++ toString start ++ "-" ++ toString last ++ "/" ++
            toString contents.flatten.length) length
            ((contents.flatten.drop start).take (last - start + 1)))) ∧
    (header ≠ "" → (¬ ∃ start last, RangeOf contents.flatten.length header start last) →
      ∃ text, getObject deps head header g = .failed (.invalidRange text)) ∧
    ∀ off length, WalkInRange (objectSegmentRefs head) off length := by
  have size := object.size
  refine ⟨?_, ?_, ?_, walk_in_range _⟩
  · rintro rfl
    refine ⟨.ofInt head.sizeBytes, size, ?_⟩
    have parsed : parseRange "" (.ofInt head.sizeBytes) =
        .ok { contentLength := .ofInt head.sizeBytes, status := 200 } := rfl
    have read := getObject_of_parsed object parsed (by simp [size])
    rw [size, UInt64.toNat_zero, List.drop_zero, List.take_length] at read
    exact read
  · intro start last range
    have bounds := range.bounds
    rw [← size] at range ⊢
    have limit := UInt64.toNat_lt (.ofInt head.sizeBytes)
    have first := UInt64.toNat_ofNat_of_lt' (show start < 2 ^ 64 by omega)
    have final := UInt64.toNat_ofNat_of_lt' (show last < 2 ^ 64 by omega)
    -- the length of the range does not wrap around
    have ordered : UInt64.ofNat start ≤ .ofNat last := by
      rw [UInt64.le_iff_toNat_le]
      omega
    have length : (UInt64.ofNat last - .ofNat start + 1).toNat = last - start + 1 := by
      simp only [UInt64.toNat_add, UInt64.toNat_sub_of_le _ _ ordered, first, final,
        UInt64.toNat_one]
      omega
    have read := getObject_of_parsed object (parseRange_of_range range)
      (by simp only [byteRange, first, length]; omega)
    simp only [byteRange, first, final, length] at read
    exact ⟨bounds.1, size ▸ bounds.2, _, length, read⟩
  · intro named none
    cases parsed : parseRange header (UInt64.ofInt head.sizeBytes) with
    | ok r => exact absurd (size ▸ range_of_parseRange named parsed) none
    | error text =>
      refine ⟨text, ?_⟩
      simp only [getObject, object.live, Bool.false_eq_true, if_false,
        GetObjectDeps.checkDecryptAdmission, ne_eq, object.unencrypted, not_false_eq_true,
        if_true, parsed]

end

/-- A store of two segments, by their ids. -/
def twoSegmentStore : SegmentStore Unit where
  getSegment ref off length _ :=
    let bytes : List UInt8 := if ref.segmentID = "a" then [1, 2, 3] else [4, 5]
    .ok { content := (bytes.drop off.toNat).take length.toNat }
  putSegment _ g := (.error .notFound, g)

def twoSegmentHead : ObjectHead :=
  { sizeBytes := 5, segmentRefs := [{ segmentID := "a", sizeBytes := 3 },
    { segmentID := "b", sizeBytes := 2 }] }

/-- Bytes 2 to 3 lie in both segments. -/
theorem range_of_two_segments :
    getObject { store := twoSegmentStore } twoSegmentHead "bytes=2-3" () =
      .content 206 "bytes 2-3/5" 2 [3, 4] := by
  have object : PlainObject twoSegmentStore () twoSegmentHead [[1, 2, 3], [4, 5]] :=
    { live := rfl
      unencrypted := by decide
      plain := by decide
      sizes := rfl
      total := rfl
      small := by decide
      exact := .cons (fun off length _ _ => ⟨_, rfl, rfl⟩)
        (.cons (fun off length _ _ => ⟨_, rfl, rfl⟩) .nil) }
  have range : RangeOf 5 "bytes=2-3" 2 3 :=
    @RangeOf.closed 5 _ ['2'] ['3'] 2 3 rfl ⟨by decide, rfl, rfl, by decide⟩
      ⟨by decide, rfl, rfl, by decide⟩ (by decide) (by decide)
  obtain ⟨-, -, length, two, response⟩ :=
    (@range_get_exact _ { store := twoSegmentStore } _ _ _ object "bytes=2-3").2.1 2 3 range
  obtain rfl : length = 2 := UInt64.toNat_inj.mp two
  exact response

end Namros.Guarantees
