import Mathlib.Data.Nat.Digits.Defs
import Namros.Source.AwsChunked

/-!
# The aws-chunked format

The format as a grammar, and what the steps of the reader that take a line, a terminator or the
trailers accept: exactly what the grammar has in their place.
-/

namespace Namros.Guarantees

open Library Library.Delimited Source

/-! ## The format -/

/-- A text ended by CRLF. -/
def line (text : Bytes) : Bytes := text ++ [0x0d, 0x0a]

/-- A number written in hexadecimal digits. -/
def HexNumeral (digits : Bytes) (n : Nat) : Prop :=
  digits ≠ [] ∧
    ∃ values : List Nat, digits.map hexDigitValue = values.map some ∧
      n = Nat.ofDigits 16 values.reverse

/-- The text of a chunk line: a size below `2 ^ 64` in hexadecimal, white space around it, and
then nothing, or a semicolon and anything. -/
def ChunkLine (text : Bytes) (size : Nat) : Prop :=
  0x0a ∉ text ∧ size < 2 ^ 64 ∧
    ∃ left digits right extension, text = left ++ digits ++ right ++ extension ∧
      Concatenated whiteSpace left ∧ HexNumeral digits size ∧ Concatenated whiteSpace right ∧
      (extension = [] ∨ extension.head? = some 0x3b)

/-- The text of a trailer line. -/
def TrailerLine (text : Bytes) : Prop := text ≠ [] ∧ 0x0a ∉ text

/-- An aws-chunked body and the bytes it carries. -/
inductive WellFormed : Bytes → Bytes → Prop
  | last {text : Bytes} {trailers : List Bytes} (announced : ChunkLine text 0)
      (rest : ∀ trailer ∈ trailers, TrailerLine trailer) :
      WellFormed (line text ++ (trailers.flatMap line ++ line [])) []
  | chunk {text payload body carried : Bytes} (announced : ChunkLine text payload.length)
      (nonempty : payload ≠ []) (rest : WellFormed body carried) :
      WellFormed (line text ++ (line payload ++ body)) (payload ++ carried)

/-- A stream that starts with chunks which carry the given bytes, the last of them perhaps only
in part. -/
inductive StartsWithChunks : Bytes → Bytes → Prop
  | none {stream : Bytes} : StartsWithChunks stream []
  | part {text payload rest : Bytes} {size : Nat} (announced : ChunkLine text size)
      (inside : payload.length ≤ size) : StartsWithChunks (line text ++ (payload ++ rest)) payload
  | chunk {text payload stream carried : Bytes} (announced : ChunkLine text payload.length)
      (rest : StartsWithChunks stream carried) :
      StartsWithChunks (line text ++ (line payload ++ stream)) (payload ++ carried)

/-! ## White space and digits -/

theorem whiteSpace_prefixFree : PrefixFree whiteSpace := ⟨by decide, by decide +kernel⟩

theorem whiteSpace_suffixFree : PrefixFree (whiteSpace.map List.reverse) :=
  ⟨by decide, by decide +kernel⟩

theorem whiteSpace_noSemicolon : ∀ piece ∈ whiteSpace, 0x3b ∉ piece := by decide

theorem whiteSpace_noDigit : ∀ piece ∈ whiteSpace, ∀ c ∈ piece, hexDigitValue c = none := by
  decide +kernel

theorem hexDigitValue_semicolon : hexDigitValue 0x3b = none := by decide

variable {digits : Bytes} {n : Nat}

/-- A hexadecimal numeral consists of digits. -/
theorem HexNumeral.digit (numeral : HexNumeral digits n) {c : UInt8} (member : c ∈ digits) :
    ∃ d, hexDigitValue c = some d := by
  obtain ⟨_, values, same, _⟩ := numeral
  have found : hexDigitValue c ∈ values.map some := same ▸ List.mem_map_of_mem member
  obtain ⟨d, _, equal⟩ := List.mem_map.mp found
  exact ⟨d, equal.symm⟩

/-- A number only grows with further digits. -/
theorem le_foldl_digits (values : List Nat) (n : Nat) :
    n ≤ values.foldl (fun n d => n * 16 + d) n := by
  induction values generalizing n with
  | nil => exact Nat.le_refl n
  | cons d values ih => exact Nat.le_trans (by omega) (ih (n * 16 + d))

theorem foldl_digits (values : List Nat) :
    values.foldl (fun n d => n * 16 + d) 0 = Nat.ofDigits 16 values.reverse := by
  rw [Nat.ofDigits_eq_foldr, List.foldr_reverse]
  congr 1
  funext n d
  simp only [Nat.cast_id]
  omega

theorem parseHexFrom_eq_some {m : Nat} (small : n < 2 ^ 64) (text : Bytes) :
    parseHexFrom n text = some m ↔
      m < 2 ^ 64 ∧ ∃ values : List Nat, text.map hexDigitValue = values.map some ∧
        m = values.foldl (fun n d => n * 16 + d) n := by
  induction text generalizing n with
  | nil =>
    simp only [parseHexFrom, List.map_nil, Option.some.injEq]
    constructor
    · rintro rfl
      exact ⟨small, [], rfl, rfl⟩
    · rintro ⟨_, values, empty, rfl⟩
      rw [List.map_eq_nil_iff.mp empty.symm]
      rfl
  | cons c text ih =>
    rw [parseHexFrom]
    cases digit : hexDigitValue c with
    | none =>
      simp only [List.map_cons, digit, reduceCtorEq, false_iff]
      rintro ⟨_, values, same, _⟩
      cases values with
      | nil => cases same
      | cons d values => cases (List.cons.inj same).1
    | some d =>
      by_cases fits : n * 16 + d < 2 ^ 64
      · simp only [if_pos fits, ih fits, List.map_cons, digit]
        apply and_congr_right
        intro _
        constructor
        · rintro ⟨values, same, rfl⟩
          exact ⟨d :: values, by rw [same]; rfl, rfl⟩
        rintro ⟨values, same, rfl⟩
        cases values with
        | nil => cases same
        | cons e values =>
          obtain ⟨first, rest⟩ := List.cons.inj same
          cases first
          exact ⟨values, rest, rfl⟩
      · simp only [if_neg fits, List.map_cons, digit, reduceCtorEq, false_iff]
        rintro ⟨below, values, same, rfl⟩
        cases values with
        | nil => cases same
        | cons e values =>
          obtain ⟨first, rest⟩ := List.cons.inj same
          cases first
          exact fits (Nat.lt_of_le_of_lt (le_foldl_digits values _) below)

variable {text : Bytes}

theorem parseHex_eq_some : parseHex text = some n ↔ n < 2 ^ 64 ∧ HexNumeral text n := by
  by_cases empty : text = []
  · simp [parseHex, HexNumeral, empty]
  · rw [parseHex, if_neg empty, parseHexFrom_eq_some (Nat.two_pow_pos 64)]
    simp only [HexNumeral, foldl_digits, ne_eq, empty, not_false_eq_true, true_and]

variable {rest : Bytes}

/-- No white space begins with a digit. -/
theorem whiteSpace_stops_start (numeral : HexNumeral digits n) :
    ∀ piece ∈ whiteSpace, ¬ piece <+: digits ++ rest := by
  intro piece member starts
  obtain ⟨c, tail, rfl⟩ := List.exists_cons_of_ne_nil numeral.1
  obtain ⟨b, end_, rfl⟩ := List.exists_cons_of_ne_nil (whiteSpace_prefixFree.nonempty piece member)
  obtain ⟨rfl, _⟩ := List.cons_prefix_cons.mp starts
  obtain ⟨d, digit⟩ := numeral.digit List.mem_cons_self
  rw [whiteSpace_noDigit _ member _ List.mem_cons_self] at digit
  cases digit

/-- No white space ends with a digit. -/
theorem whiteSpace_stops_end (numeral : HexNumeral digits n) :
    ∀ piece ∈ whiteSpace, ¬ piece <:+ digits := by
  intro piece member ends
  have nonempty := whiteSpace_prefixFree.nonempty piece member
  have last := List.getLast_mem nonempty
  obtain ⟨d, digit⟩ := numeral.digit (ends.subset last)
  rw [whiteSpace_noDigit _ member _ last] at digit
  cases digit

theorem trimBytes_numeral (numeral : HexNumeral digits n) :
    trimBytes text = digits ↔
      ∃ left right, Concatenated whiteSpace left ∧ Concatenated whiteSpace right ∧
        text = left ++ digits ++ right := by
  constructor
  · intro trimmed
    obtain ⟨left, leftMade, split⟩ := exists_trimStart whiteSpace text
    obtain ⟨right, rightMade, split'⟩ :=
      exists_trimEnd whiteSpace (trimStart whiteSpace text)
    refine ⟨left, right, leftMade, rightMade, ?_⟩
    rw [← trimmed, List.append_assoc, trimBytes, ← split', ← split]
  · rintro ⟨left, right, leftMade, rightMade, rfl⟩
    rw [trimBytes, List.append_assoc,
      whiteSpace_prefixFree.trimStart_append (whiteSpace_stops_start numeral) leftMade,
      whiteSpace_suffixFree.trimEnd_append (whiteSpace_stops_end numeral) rightMade]

/-! ## Lines -/

variable {br : Bytes}

theorem readLine_ok : readLine br = .ok (text, rest) ↔ 0x0a ∉ text ∧ br = line text ++ rest := by
  constructor
  · intro outcome
    rw [readLine] at outcome
    cases found : cutAt 0x0a br with
    | none => simp [found] at outcome
    | some parts =>
      obtain ⟨before, after⟩ := parts
      obtain ⟨absent, rfl⟩ := cutAt_eq_some.mp found
      simp only [found] at outcome
      split at outcome
      · cases outcome
      · next ended =>
        cases outcome
        have whole : before.dropLast ++ [0x0d] = before :=
          List.dropLast_append_getLast? _ (not_not.mp ended)
        refine ⟨fun member => absent (List.mem_of_mem_dropLast member), ?_⟩
        rw [line, ← List.singleton_append, ← List.append_assoc, ← whole]
        simp
  · rintro ⟨absent, rfl⟩
    have found : cutAt 0x0a (line text ++ rest) = some (text ++ [0x0d], rest) :=
      cutAt_eq_some.mpr ⟨by simp [absent], by simp [line]⟩
    simp [readLine, found]

theorem consumeCRLF_ok : consumeCRLF br = .ok rest ↔ br = line [] ++ rest := by
  unfold consumeCRLF
  split
  · next cr lf tail =>
    simp only [line, List.nil_append, List.cons_append, List.cons.injEq]
    split
    · next differs =>
      simp only [reduceCtorEq, false_iff]
      tauto
    · next same =>
      simp only [Except.ok.injEq]
      tauto
  · next short =>
    simp only [reduceCtorEq, false_iff]
    rintro rfl
    exact short _ _ _ rfl

/-- The text before the first semicolon. -/
theorem sizeText_eq {before : Bytes} :
    ((cutAt 0x3b text).map Prod.fst).getD text = before ↔
      0x3b ∉ before ∧ ∃ extension, text = before ++ extension ∧
        (extension = [] ∨ extension.head? = some 0x3b) := by
  cases found : cutAt 0x3b text with
  | none =>
    have absent := cutAt_eq_none.mp found
    simp only [Option.map_none, Option.getD_none]
    constructor
    · rintro rfl
      exact ⟨absent, [], (List.append_nil _).symm, .inl rfl⟩
    · rintro ⟨_, extension, rfl, empty | semicolon⟩
      · rw [empty, List.append_nil]
      · exact absurd (List.mem_append_right _ (List.mem_of_head? semicolon)) absent
  | some parts =>
    obtain ⟨first, second⟩ := parts
    obtain ⟨absent, rfl⟩ := cutAt_eq_some.mp found
    simp only [Option.map_some, Option.getD_some]
    constructor
    · rintro rfl
      exact ⟨absent, _, rfl, .inr rfl⟩
    rintro ⟨fresh, extension, split, empty | semicolon⟩
    · rw [empty, List.append_nil] at split
      exact absurd (split ▸ by simp) fresh
    obtain ⟨tail, rfl⟩ : ∃ tail, extension = 0x3b :: tail := List.head?_eq_some_iff.mp semicolon
    have again := cutAt_eq_some.mpr ⟨fresh, split⟩
    rw [found] at again
    cases again
    rfl

theorem chunkLine_iff {size : Nat} :
    ChunkLine text size ↔
      0x0a ∉ text ∧ parseHex
    (trimBytes (((cutAt 0x3b text).map Prod.fst).getD text)) = some size := by
  rw [ChunkLine]
  apply and_congr_right
  intro _
  constructor
  · rintro ⟨small, left, digits, right, extension, rfl, leftMade, numeral, rightMade, ends⟩
    have noSemicolon : 0x3b ∉ left ++ digits ++ right := by
      intro member
      rcases List.mem_append.mp member with member | member
      · rcases List.mem_append.mp member with member | member
        · obtain ⟨piece, found, inside⟩ := leftMade.mem member
          exact whiteSpace_noSemicolon piece found inside
        · obtain ⟨d, digit⟩ := numeral.digit member
          rw [hexDigitValue_semicolon] at digit
          cases digit
      · obtain ⟨piece, found, inside⟩ := rightMade.mem member
        exact whiteSpace_noSemicolon piece found inside
    rw [sizeText_eq.mpr ⟨noSemicolon, extension, rfl, ends⟩,
      (trimBytes_numeral numeral).mpr ⟨left, right, leftMade, rightMade, rfl⟩]
    exact parseHex_eq_some.mpr ⟨small, numeral⟩
  · intro parsed
    obtain ⟨small, numeral⟩ := parseHex_eq_some.mp parsed
    obtain ⟨left, right, leftMade, rightMade, split⟩ := (trimBytes_numeral numeral).mp rfl
    obtain ⟨_, extension, whole, ends⟩ := sizeText_eq.mp (Eq.refl
      (((cutAt 0x3b text).map Prod.fst).getD text))
    refine ⟨small, left, _, right, extension, ?_, leftMade, numeral, rightMade, ends⟩
    rw [← split]
    exact whole

theorem nextChunkSize_ok {size : Nat} :
    nextChunkSize br = .ok (size, rest) ↔
      ∃ text, ChunkLine text size ∧ br = line text ++ rest := by
  have step : nextChunkSize br = .ok (size, rest) ↔
      ∃ text, readLine br = .ok (text, rest) ∧
        parseHex (trimBytes (((cutAt 0x3b text).map Prod.fst).getD text)) = some size := by
    rw [nextChunkSize]
    cases readLine br with
    | error e => simp
    | ok found =>
      obtain ⟨text, rest'⟩ := found
      simp only [Except.ok.injEq, Prod.mk.injEq]
      cases parsed : parseHex (trimBytes (((cutAt 0x3b text).map Prod.fst).getD text)) with
      | none =>
        simp only [reduceCtorEq, false_iff]
        rintro ⟨_, ⟨rfl, rfl⟩, parsed'⟩
        rw [parsed] at parsed'
        cases parsed'
      | some n =>
        simp only [Except.ok.injEq, Prod.mk.injEq]
        constructor
        · rintro ⟨rfl, rfl⟩
          exact ⟨text, ⟨rfl, rfl⟩, parsed⟩
        rintro ⟨_, ⟨rfl, rfl⟩, parsed'⟩
        rw [parsed] at parsed'
        cases parsed'
        exact ⟨rfl, rfl⟩
  rw [step]
  simp only [readLine_ok, chunkLine_iff]
  constructor
  · rintro ⟨text, ⟨fresh, split⟩, parsed⟩
    exact ⟨text, ⟨fresh, parsed⟩, split⟩
  · rintro ⟨text, ⟨fresh, parsed⟩, split⟩
    exact ⟨text, ⟨fresh, split⟩, parsed⟩

@[simp] theorem length_line (text : Bytes) : (line text).length = text.length + 2 := by
  simp [line]

theorem consumeTrailersFrom_ok (fuel : Nat) (br : Bytes) (enough : br.length < fuel) :
    consumeTrailersFrom fuel br = .ok rest ↔
      ∃ trailers : List Bytes, (∀ trailer ∈ trailers, TrailerLine trailer) ∧
        br = trailers.flatMap line ++ (line [] ++ rest) := by
  induction fuel generalizing br with
  | zero => omega
  | succ fuel ih =>
    rw [consumeTrailersFrom]
    constructor
    · intro outcome
      cases read : readLine br with
      | error e =>
        rw [read] at outcome
        cases outcome
      | ok found =>
        obtain ⟨text, tail⟩ := found
        obtain ⟨fresh, rfl⟩ := readLine_ok.mp read
        simp only [read] at outcome
        split at outcome
        · next empty =>
          cases outcome
          exact ⟨[], by simp, by rw [empty]; rfl⟩
        · next nonempty =>
          rw [List.length_append, length_line] at enough
          obtain ⟨trailers, all, rfl⟩ := (ih tail (by omega)).mp outcome
          refine ⟨text :: trailers, ?_, by simp⟩
          intro trailer member
          rcases List.mem_cons.mp member with rfl | member
          · exact ⟨nonempty, fresh⟩
          · exact all trailer member
    · rintro ⟨trailers, all, rfl⟩
      cases trailers with
      | nil =>
        have read : readLine (line [] ++ rest) = .ok ([], rest) := readLine_ok.mpr ⟨by simp, rfl⟩
        simp only [List.flatMap_nil, List.nil_append, read, if_true]
      | cons text trailers =>
        obtain ⟨nonempty, fresh⟩ := all text List.mem_cons_self
        have read : readLine ((text :: trailers).flatMap line ++ (line [] ++ rest)) =
            .ok (text, trailers.flatMap line ++ (line [] ++ rest)) :=
          readLine_ok.mpr ⟨fresh, by simp⟩
        rw [List.flatMap_cons, List.append_assoc, List.length_append, length_line] at enough
        simp only [read, if_neg nonempty]
        exact (ih _ (by omega)).mpr
          ⟨trailers, fun trailer member => all trailer (List.mem_cons_of_mem _ member), rfl⟩

theorem consumeTrailers_ok :
    consumeTrailers br = .ok rest ↔
      ∃ trailers : List Bytes, (∀ trailer ∈ trailers, TrailerLine trailer) ∧
        br = trailers.flatMap line ++ (line [] ++ rest) :=
  consumeTrailersFrom_ok _ br (Nat.lt_succ_self _)

end Namros.Guarantees
