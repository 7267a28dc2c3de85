import Namros.Source.Presign

/-!
# The expiry of a presigned request

The seconds of `X-Amz-Expires` become a duration before the seven days are checked, and the
product wraps: `9223372037` seconds are a negative duration, which is within seven days.
-/

namespace Namros.Guarantees

open Source Library

/-- The text is a decimal integer, with or without a sign. -/
def DecimalInteger (text : String) (n : Int) : Prop :=
  ∃ digits : List Char, digits ≠ [] ∧ digits.all Char.isDigit ∧
    ((text.toList = digits ∨ text.toList = '+' :: digits) ∧ n = Nat.ofDigitChars 10 digits 0 ∨
      text.toList = '-' :: digits ∧ n = -Nat.ofDigitChars 10 digits 0)

theorem foldl_decimal {digits : List Char} (decimal : digits.all Char.isDigit) (n : Nat) :
    digits.foldl (fun n c => n * 10 + ((c.toNat : Int) - 0x30)) (n : Int) =
      Nat.ofDigitChars 10 digits n := by
  induction digits generalizing n with
  | nil => rfl
  | cons c digits ih =>
    simp only [List.all_cons, Bool.and_eq_true, Char.isDigit, decide_eq_true_eq] at decimal
    have low : 48 ≤ c.toNat := decimal.1.1
    have next := ih (by simpa [Char.isDigit] using decimal.2) (10 * n + (c.toNat - '0'.toNat))
    rw [List.foldl_cons, Nat.ofDigitChars_cons, ← next]
    congr 1
    have zero : '0'.toNat = 48 := rfl
    omega

/-- A sign is not a digit. -/
theorem not_digits_cons {c : Char} {rest : List Char} (sign : c.isDigit = false) :
    ¬ (c :: rest).all Char.isDigit := by
  simp [sign]

/-- `strconv.Atoi` reads the decimal integers of 64 bits. -/
theorem atoi_eq_some {text : String} {n : Int} :
    atoi text = some n ↔ DecimalInteger text n ∧ -(2 ^ 63) ≤ n ∧ n < 2 ^ 63 := by
  unfold atoi
  split
  rename_i negative digits parts
  have meaning : DecimalInteger text n ↔ digits ≠ [] ∧ digits.all Char.isDigit ∧
      n = if negative then -(Nat.ofDigitChars 10 digits 0 : Int) else Nat.ofDigitChars 10 digits 0 := by
    have minus : ¬ ('-' :: digits).all Char.isDigit := not_digits_cons rfl
    have plus : ¬ ('+' :: digits).all Char.isDigit := not_digits_cons rfl
    unfold DecimalInteger
    split at parts <;> cases parts <;> grind
  have same : (digits.all fun c => '0' ≤ c && c ≤ '9') = digits.all Char.isDigit := rfl
  by_cases bad : digits = [] ∨ ¬ digits.all Char.isDigit
  · rw [if_pos (same ▸ bad), meaning]
    grind
  have value := foldl_decimal (not_not.mp (not_or.mp bad).2) 0
  rw [if_neg (same ▸ bad), meaning]
  simp only [Nat.cast_zero] at value
  rw [value]
  grind

/-! ## The query -/

/-- Everything `parsePresignedQuery` reads but the expiry is in order. -/
structure RestInOrder (values : List (String × List String)) : Prop where
  algorithm : queryGet values "X-Amz-Algorithm" = "AWS4-HMAC-SHA256"
  credential : ∃ scope, parseCredentialScope (queryGet values "X-Amz-Credential") = .ok scope
  signedHeaders : queryGet values "X-Amz-SignedHeaders" ≠ ""
  signature : queryGet values "X-Amz-Signature" ≠ ""

variable {values : List (String × List String)} {query : PresignedQuery} {ρ : Type}

/-- A check that fails is passed when its condition does not hold. -/
theorem check_ok {ε α : Type} {c : Prop} [Decidable c] {e : ε} {x : Except ε α} {a : α} :
    (if c then .error e else x) = .ok a ↔ ¬ c ∧ x = .ok a := by
  by_cases failed : c <;> simp [failed]

theorem RestInOrder.accepts (rest : RestInOrder values) {n : Int}
    (read : atoi (queryGet values "X-Amz-Expires") = some n) (positive : 0 < n)
    (short : durationOfSeconds n ≤ maxPresignExpiry) :
    ∃ query, parsePresignedQuery values = .ok query := by
  obtain ⟨scope, credential⟩ := rest.credential
  simp [parsePresignedQuery, rest.algorithm, credential, rest.signedHeaders, rest.signature, read,
    not_le.mpr positive, not_lt.mpr short, bind, Except.bind]

/-! ## The expiry -/

/-- The expiry of the query is taken literally. -/
structure TakenLiterally (values : List (String × List String)) : Prop where
  accepted : (∃ query, parsePresignedQuery values = .ok query) ↔
    ∃ n, DecimalInteger (queryGet values "X-Amz-Expires") n ∧ 1 ≤ n ∧ n ≤ 604800
  exact : ∀ query n, parsePresignedQuery values = .ok query →
    DecimalInteger (queryGet values "X-Amz-Expires") n → query.expires = n * 10 ^ 9
  refused : ∀ (ρ : Type) (v : Verifier ρ) (now date : Time) (n : Int) (r : ρ),
    DecimalInteger (queryGet values "X-Amz-Expires") n →
    v.parseTime (queryGet values "X-Amz-Date") = some date → date + n * 10 ^ 9 < now →
    v.verifyPresigned values now ≠ .ok r

/-- More than seven days, which the product of 64 bits brings back within them. -/
def WrapsBack (text : String) : Prop :=
  ∃ n, DecimalInteger text n ∧ 604800 < n ∧ n < 2 ^ 63 ∧
    (n * 10 ^ 9).bmod (2 ^ 64) ≤ 604800 * 10 ^ 9

/-- The seconds of a week fit. -/
theorem durationOfSeconds_eq {n : Int} (positive : 0 < n) (short : n ≤ 604800) :
    durationOfSeconds n = n * 10 ^ 9 := by
  apply Int.bmod_eq_of_le <;> omega

theorem decimalInteger_unique {text : String} {n m : Int} (first : DecimalInteger text n)
    (second : DecimalInteger text m) : n = m := by
  have minus (rest : List Char) : ¬ ('-' :: rest).all Char.isDigit := not_digits_cons rfl
  have plus (rest : List Char) : ¬ ('+' :: rest).all Char.isDigit := not_digits_cons rfl
  unfold DecimalInteger at first second
  grind

/-- The expiry is taken literally unless it is so long that its duration wraps back. -/
theorem presign_expiry_literal_iff (rest : RestInOrder values) :
    TakenLiterally values ↔ ¬ WrapsBack (queryGet values "X-Amz-Expires") := by
  constructor
  · intro literal ⟨n, decimal, long, small, short⟩
    have accepted := rest.accepts (atoi_eq_some.mpr ⟨decimal, by omega, small⟩) (by omega) short
    obtain ⟨m, same, _, within⟩ := literal.accepted.mp accepted
    have equal := decimalInteger_unique decimal same
    omega
  · intro straight
    have read (query) (ok : parsePresignedQuery values = .ok query) :
        ∃ n, DecimalInteger (queryGet values "X-Amz-Expires") n ∧ 0 < n ∧ n ≤ 604800 ∧
          query.expires = n * 10 ^ 9 := by
      obtain ⟨scope, _, ok⟩ := bind_eq_ok.mp (check_ok.mp ok).2
      simp only [check_ok, not_le, not_lt] at ok
      obtain ⟨_, positive, short, returned⟩ := ok
      cases read : atoi (queryGet values "X-Amz-Expires") with
      | none => simp [read] at positive
      | some n =>
      simp only [read, Option.getD_some] at positive short returned
      obtain ⟨decimal, _, small⟩ := atoi_eq_some.mp read
      have within : n ≤ 604800 := not_lt.mp fun long => straight ⟨n, decimal, long, small, short⟩
      cases returned
      exact ⟨n, decimal, positive, within, durationOfSeconds_eq positive within⟩
    have exact (query n) (ok : parsePresignedQuery values = .ok query)
        (decimal : DecimalInteger (queryGet values "X-Amz-Expires") n) :
        query.expires = n * 10 ^ 9 := by
      obtain ⟨m, same, _, _, returned⟩ := read query ok
      rw [decimalInteger_unique decimal same, returned]
    refine ⟨⟨?_, ?_⟩, exact, ?_⟩
    · rintro ⟨query, ok⟩
      obtain ⟨n, decimal, positive, within, _⟩ := read query ok
      exact ⟨n, decimal, positive, within⟩
    · rintro ⟨n, decimal, positive, within⟩
      apply rest.accepts (atoi_eq_some.mpr ⟨decimal, by omega, by omega⟩) positive
      rw [durationOfSeconds_eq positive within, maxPresignExpiry]
      omega
    · intro ρ v now date n r decimal dated late ok
      obtain ⟨query, parsed, ok⟩ := bind_eq_ok.mp ok
      simp only [check_ok] at ok
      obtain ⟨time, read, ok⟩ := bind_eq_ok.mp ok.2.2
      simp only [check_ok, not_lt] at ok
      have equal := (check_ok.mp read).2
      rw [dated] at equal
      cases equal
      have early := ok.2.2.1
      rw [exact query n parsed decimal] at early
      exact absurd early (not_le.mpr late)

/-- A query whose expiry is the given text. -/
def presignedFor (expires : String) : List (String × List String) :=
  [("X-Amz-Algorithm", ["AWS4-HMAC-SHA256"]), ("X-Amz-Expires", [expires]),
   ("X-Amz-Credential", ["AKIA/20260101/local/s3/aws4_request"]),
   ("X-Amz-SignedHeaders", ["host"]), ("X-Amz-Signature", ["00"])]

theorem presignedFor_inOrder (expires : String) : RestInOrder (presignedFor expires) where
  algorithm := rfl
  credential := ⟨⟨"AKIA", "20260101", "local", "s3", "aws4_request"⟩,
    (by decide +kernel : parseCredentialScope "AKIA/20260101/local/s3/aws4_request" = _)⟩
  signedHeaders := (by decide : "host" ≠ "")
  signature := (by decide : "00" ≠ "")

theorem decimal_of_atoi (expires : String) {n : Int} (read : atoi expires = some n) :
    DecimalInteger (queryGet (presignedFor expires) "X-Amz-Expires") n :=
  (atoi_eq_some.mp read).1

/-- Ten minutes are taken literally. -/
theorem presign_ten_minutes : TakenLiterally (presignedFor "600") := by
  refine (presign_expiry_literal_iff (presignedFor_inOrder "600")).mpr ?_
  intro ⟨n, decimal, long, _⟩
  have equal := decimalInteger_unique decimal (decimal_of_atoi "600" (n := 600) (by decide +kernel))
  omega

/-- Nearly three hundred years are accepted. -/
theorem presign_wraps : ¬ TakenLiterally (presignedFor "9223372037") := by
  intro literal
  have accepted := (presignedFor_inOrder "9223372037").accepts (n := 9223372037)
    (by decide +kernel) (by decide) (by decide +kernel)
  obtain ⟨m, same, _, within⟩ := literal.accepted.mp accepted
  have equal := decimalInteger_unique same
    (decimal_of_atoi "9223372037" (n := 9223372037) (by decide +kernel))
  omega

end Namros.Guarantees
