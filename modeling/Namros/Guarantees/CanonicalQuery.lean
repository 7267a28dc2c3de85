import Namros.Library.Delimited
import Namros.Library.SortSearch
import Namros.Source.CanonicalQuery

/-!
# The canonical query string against SigV4

SigV4 sorts the pairs of a query as they are encoded. The code sorts them as they are decoded:
`{` comes after `z`, its encoding `%7B` before. A canonical string still belongs to one multiset
of pairs.
-/

namespace Namros.Guarantees

open Source Library

theorem isUnreserved_toNat (c : UInt8) : isUnreserved c.toNat = isSafe c := by
  simp [isUnreserved, isSafe, UInt8.le_iff_toNat_le, beq_eq_decide, ← UInt8.toNat_inj]

theorem isUnreserved_high {r : Nat} (high : 0x80 ≤ r) : isUnreserved r = false := by
  simp only [isUnreserved, Bool.or_eq_false_iff, Bool.and_eq_false_iff, decide_eq_false_iff_not,
    beq_eq_false_iff_ne]
  omega

theorem percentByte_high {c : UInt8} (high : 0x80 ≤ c) : percentByte c = escapeByte c := by
  have unsafe_ : isSafe c = false := by
    rw [← isUnreserved_toNat]
    exact isUnreserved_high (UInt8.le_iff_toNat_le.mp high)
  simp [escapeByte, unsafe_, percentByte]

/-- A rune is encoded byte by byte. -/
theorem encodedRune_eq (r : Char) :
    (if isUnreserved r.toNat then String.utf8EncodeChar r
      else (String.utf8EncodeChar r).flatMap percentByte) =
      (String.utf8EncodeChar r).flatMap escapeByte := by
  by_cases low : r.toNat < 0x80
  · have code : (UInt8.ofNat r.toNat).toNat = r.toNat := by
      rw [UInt8.toNat_ofNat', Nat.mod_eq_of_lt (by omega)]
    have safe := isUnreserved_toNat (UInt8.ofNat r.toNat)
    rw [code] at safe
    simp [utf8EncodeChar_low low, safe, escapeByte, percentByte]
  · have high := not_lt.mp low
    rw [isUnreserved_high high, if_neg Bool.false_ne_true]
    exact List.flatMap_congr fun d member => percentByte_high (utf8EncodeChar_high high d member)

/-- A byte that starts no rune is not ASCII. -/
theorem high_of_firstRune {c : UInt8} {rest : Bytes} (wrong : firstRune (c :: rest) = none) :
    0x80 ≤ c := by
  by_contra low
  rw [UInt8.le_iff_toNat_le, not_le] at low
  change c.toNat < 128 at low
  have codes : ∀ n < 128, (Char.ofNat n).toNat = n := by decide
  have code := codes c.toNat low
  have read := firstRune_encoded (Char.ofNat c.toNat) rest
  rw [utf8EncodeChar_low (by omega), code, UInt8.ofNat_toNat] at read
  exact nomatch wrong.symm.trans read

/-- The encoding goes byte by byte. -/
theorem awsPercentEncodeFrom_eq {fuel : Nat} {value : Bytes} (enough : value.length ≤ fuel) :
    awsPercentEncodeFrom fuel value = escape value := by
  induction fuel generalizing value with
  | zero =>
    rw [List.eq_nil_of_length_eq_zero (Nat.le_zero.mp enough)]
    rfl
  | succ fuel ih =>
    cases value with
    | nil => rfl
    | cons c rest =>
      rw [List.length_cons] at enough
      rw [awsPercentEncodeFrom]
      cases read : firstRune (c :: rest) with
      | none =>
        dsimp only
        rw [percentByte_high (high_of_firstRune read), ih (by omega)]
        rfl
      | some r =>
        obtain ⟨later, split⟩ := exists_of_firstRune read
        have size := String.length_utf8EncodeChar r
        have fewer : later.length ≤ fuel := by
          have lengths := congrArg List.length split
          have positive := r.utf8Size_pos
          rw [List.length_cons, List.length_append] at lengths
          omega
        dsimp only
        rw [split, ← size, List.drop_left, ih fewer, encodedRune_eq]
        exact List.flatMap_append.symm

/-! ## Order -/

/-- The texts differ first in an unreserved byte of the one and a greater reserved byte of the
other. -/
def turns : Bytes → Bytes → Bool
  | c :: x, d :: y => if c = d then turns x y else c < d && isSafe c && !isSafe d
  | _, _ => false

theorem lt_of_turns {x y : Bytes} (turned : turns x y = true) : x < y := by
  induction x generalizing y with
  | nil => cases turned
  | cons c x ih =>
    cases y with
    | nil => cases turned
    | cons d y =>
      rw [List.cons_lt_cons_iff]
      unfold turns at turned
      split at turned
      · next same => exact .inr ⟨same, ih turned⟩
      · simp only [Bool.and_eq_true, decide_eq_true_eq] at turned
        exact .inl turned.1.1

theorem hexDigit_lt {m n : UInt8} (lt : m < n) (small : n < 16) : hexDigit m < hexDigit n := by
  have table : ∀ j < 16, ∀ i < j, hexDigit (UInt8.ofNat i) < hexDigit (UInt8.ofNat j) := by decide
  rw [UInt8.lt_iff_toNat_lt] at lt small
  simpa using table n.toNat small m.toNat lt

/-- Two different bytes, encoded, keep their order unless the smaller one is unreserved and the
greater one is not: `%` comes before every unreserved byte. -/
theorem escapeByte_lt {c d : UInt8} (lt : c < d) (x y : Bytes) :
    if isSafe c && !isSafe d then escapeByte d ++ y < escapeByte c ++ x
    else escapeByte c ++ x < escapeByte d ++ y := by
  have percent : ∀ e : UInt8, isSafe e = true → 0x25 < e := by
    intro e safe
    simp only [isSafe, Bool.or_eq_true, Bool.and_eq_true, decide_eq_true_eq, beq_iff_eq] at safe
    rw [UInt8.lt_iff_toNat_lt]
    simp only [UInt8.le_iff_toNat_le, ← UInt8.toNat_inj] at safe
    simp only [UInt8.reduceToNat] at safe ⊢
    omega
  cases first : isSafe c <;> cases second : isSafe d <;>
    simp only [escapeByte, first, second, Bool.false_eq_true, if_true, if_false, Bool.not_true,
      Bool.not_false, Bool.and_true, Bool.and_false, Bool.and_self, List.cons_append,
      List.nil_append, List.cons_lt_cons_iff, lt_irrefl, false_or, true_and]
  · have bound : d / 16 < 16 ∧ d % 16 < 16 := by
      constructor <;> rw [UInt8.lt_iff_toNat_lt] <;>
        simp only [UInt8.toNat_div, UInt8.toNat_mod, UInt8.reduceToNat] <;>
        have := d.toNat_lt <;> omega
    have nibbles : c / 16 < d / 16 ∨ c / 16 = d / 16 ∧ c % 16 < d % 16 := by
      rw [UInt8.lt_iff_toNat_lt] at lt
      simp only [UInt8.lt_iff_toNat_lt, ← UInt8.toNat_inj, UInt8.toNat_div, UInt8.toNat_mod,
        UInt8.reduceToNat]
      omega
    rcases nibbles with high | ⟨high, low⟩
    · exact .inl (hexDigit_lt high bound.1)
    · exact .inr ⟨congrArg hexDigit high, .inl (hexDigit_lt low bound.2)⟩
  · exact .inl (percent d second)
  · exact .inl (percent c first)
  · exact .inl lt

theorem escape_lt {x y : Bytes} (lt : x < y) :
    if turns x y then escape y < escape x else escape x < escape y := by
  induction x generalizing y with
  | nil =>
    cases y with
    | nil => exact absurd lt (lt_irrefl _)
    | cons d y => exact Bytes.nil_lt (by simp [escape, escapeByte_prefixCode.nonempty d])
  | cons c x ih =>
    cases y with
    | nil => cases lt
    | cons d y =>
      rcases List.cons_lt_cons_iff.mp lt with less | ⟨rfl, rest⟩
      · have order := escapeByte_lt less (escape x) (escape y)
        simpa [turns, less.ne, less, escape] using order
      · have order := ih rest
        rw [turns, if_pos rfl]
        cases turned : turns x y <;> rw [turned] at order <;> exact List.append_left_lt order

/-! ## Pairs -/

/-- A pair as AWS has it percent-encoded. -/
def escapedPair (pair : Bytes ×ₗ Bytes) : Bytes ×ₗ Bytes :=
  toLex (escape (ofLex pair).1, escape (ofLex pair).2)

/-- The first part in which the pairs differ turns. -/
def turnsPair (p q : Bytes ×ₗ Bytes) : Bool :=
  if (ofLex p).1 = (ofLex q).1 then turns (ofLex p).2 (ofLex q).2
  else turns (ofLex p).1 (ofLex q).1

theorem escapedPair_lt {p q : Bytes ×ₗ Bytes} (lt : p < q) :
    if turnsPair p q then escapedPair q < escapedPair p else escapedPair p < escapedPair q := by
  simp only [escapedPair, Prod.Lex.lt_iff, ofLex_toLex, turnsPair]
  rcases Prod.Lex.lt_iff.mp lt with name | ⟨name, value⟩
  · have order := escape_lt name
    rw [if_neg name.ne]
    cases turned : turns (ofLex p).1 (ofLex q).1 <;> rw [turned] at order <;> exact Or.inl order
  · have order := escape_lt value
    rw [if_pos name, name]
    cases turned : turns (ofLex p).2 (ofLex q).2 <;> rw [turned] at order <;>
      exact Or.inr ⟨rfl, order⟩

/-- Encoding keeps the order of pairs none of which turns against another. -/
theorem escapedPair_monotoneOn_iff {S : Set (Bytes ×ₗ Bytes)} :
    MonotoneOn escapedPair S ↔ ∀ p ∈ S, ∀ q ∈ S, turnsPair p q = false := by
  constructor
  · intro keeps p inP q inQ
    by_contra turned
    rw [Bool.not_eq_false] at turned
    have lt : p < q := by
      rw [Prod.Lex.lt_iff]
      unfold turnsPair at turned
      split at turned
      · next same => exact .inr ⟨same, lt_of_turns turned⟩
      · exact .inl (lt_of_turns turned)
    have order := escapedPair_lt lt
    rw [if_pos turned] at order
    exact absurd (keeps inP inQ lt.le) (not_le.mpr order)
  · intro apart p inP q inQ le
    rcases le.eq_or_lt with rfl | lt
    · exact le_rfl
    · have order := escapedPair_lt lt
      rw [apart p inP q inQ, if_neg Bool.false_ne_true] at order
      exact order.le

theorem escapedPair_injective : Function.Injective escapedPair := by
  intro p q same
  have parts := Prod.ext_iff.mp (toLex_inj.mp same)
  exact ofLex_inj.mp (Prod.ext (escape_inj.mp parts.1) (escape_inj.mp parts.2))

/-- What is joined can be cut again. -/
structure Joinable (pair : Bytes ×ₗ Bytes) : Prop where
  equals : 0x3d ∉ (ofLex pair).1
  ampersand : 0x26 ∉ (ofLex pair).1 ++ 0x3d :: (ofLex pair).2

theorem escapedPair_joinable (pair : Bytes ×ₗ Bytes) : Joinable (escapedPair pair) := by
  have free := fun x => escape_free (c := 0x26) (by decide) (by decide) x
  refine ⟨escape_free (by decide) (by decide) _, fun member => ?_⟩
  rcases List.mem_append.mp member with name | value
  · exact free _ name
  · exact free _ (List.mem_of_ne_of_mem (by decide) value)

variable {l l' : List (Bytes ×ₗ Bytes)}

theorem splitOn_joinPairs (joinable : ∀ pair ∈ l, Joinable pair) (nonempty : l ≠ []) :
    (joinPairs l).splitOn 0x26 = l.map fun pair => (ofLex pair).1 ++ 0x3d :: (ofLex pair).2 := by
  refine List.splitOn_intercalate _ (fun line member => ?_) (by simpa using nonempty)
  obtain ⟨pair, inside, rfl⟩ := List.mem_map.mp member
  exact (joinable pair inside).ampersand

theorem joinPairs_ne_nil (nonempty : l ≠ []) : joinPairs l ≠ [] := by
  rcases l with _ | ⟨pair, _ | ⟨second, rest⟩⟩
  · exact absurd rfl nonempty
  · simp [joinPairs]
  · simp [joinPairs, List.intercalate]

theorem joinPairs_inj (joinable : ∀ pair ∈ l, Joinable pair)
    (joinable' : ∀ pair ∈ l', Joinable pair)
    (same : joinPairs l = joinPairs l') : l = l' := by
  have cut {l : List (Bytes ×ₗ Bytes)} (joinable : ∀ pair ∈ l, Joinable pair) :
      (l.map fun pair => (ofLex pair).1 ++ 0x3d :: (ofLex pair).2).map (Delimited.cutAt 0x3d) =
        l.map fun pair => some (ofLex pair) := by
    rw [List.map_map]
    exact List.map_congr_left fun pair member =>
      Delimited.cutAt_eq_some.mpr ⟨(joinable pair member).equals, rfl⟩
  by_cases empty : l = []
  · subst empty
    by_contra other
    exact joinPairs_ne_nil (Ne.symm other) same.symm
  have nonempty : l' ≠ [] := by
    rintro rfl
    exact joinPairs_ne_nil empty same
  have lines := (splitOn_joinPairs joinable empty).symm.trans
    ((congrArg _ same).trans (splitOn_joinPairs joinable' nonempty))
  have pairs := (cut joinable).symm.trans ((congrArg _ lines).trans (cut joinable'))
  exact List.map_injective_iff.mpr (fun p q equal => ofLex_inj.mp (Option.some.inj equal)) pairs

/-! ## The canonical string -/

/-- The canonical string is the pairs encoded, then sorted and joined, and belongs to the pairs of
this query only. -/
structure FollowsSigV4 (values : List (Bytes × List Bytes))
    (excludeSignature : Bool) : Prop where
  specified : canonicalQueryString values excludeSignature =
    joinPairs (((queryPairs values excludeSignature).map escapedPair).insertionSort (· ≤ ·))
  unique : ∀ others, canonicalQueryString values excludeSignature =
      canonicalQueryString others excludeSignature ↔
    (queryPairs values excludeSignature).Perm (queryPairs others excludeSignature)

theorem map_joinable (l : List (Bytes ×ₗ Bytes)) : ∀ pair ∈ l.map escapedPair, Joinable pair := by
  intro pair member
  obtain ⟨p, -, rfl⟩ := List.mem_map.mp member
  exact escapedPair_joinable p

/-- The canonical string follows SigV4 exactly when no two pairs of the query change places when
they are encoded, which two pairs do exactly when they differ first in an unreserved byte and a
greater reserved one. -/
theorem canonical_query_iff (values : List (Bytes × List Bytes)) (excludeSignature : Bool) :
    (FollowsSigV4 values excludeSignature ↔
      MonotoneOn escapedPair {pair | pair ∈ queryPairs values excludeSignature}) ∧
    (FollowsSigV4 values excludeSignature ↔ ∀ p ∈ queryPairs values excludeSignature,
      ∀ q ∈ queryPairs values excludeSignature, turnsPair p q = false) := by
  have keeps := escapedPair_monotoneOn_iff (S := {pair | pair ∈ queryPairs values excludeSignature})
  refine and_iff_left_of_imp (fun follows => follows.trans keeps) |>.mpr ?_
  have encoded (values : List (Bytes × List Bytes)) (excludeSignature : Bool) :
      canonicalQueryString values excludeSignature =
        joinPairs (((queryPairs values excludeSignature).insertionSort (· ≤ ·)).map escapedPair) := by
    simp only [canonicalQueryString, awsPercentEncode, awsPercentEncodeFrom_eq le_rfl]
    rfl
  rw [← map_insertionSort_iff]
  constructor
  · intro follows
    have same := follows.specified
    rw [encoded] at same
    refine joinPairs_inj (map_joinable _) (fun pair member => ?_) same
    exact map_joinable _ pair ((List.mem_insertionSort _).mp member)
  · intro sorted
    refine ⟨by rw [encoded, sorted], fun others => ?_⟩
    rw [encoded, encoded]
    constructor
    · intro same
      have pairs := List.map_injective_iff.mpr escapedPair_injective
        (joinPairs_inj (map_joinable _) (map_joinable _) same)
      exact (List.perm_insertionSort (· ≤ ·) _).symm.trans
        ((List.Perm.of_eq pairs).trans (List.perm_insertionSort _ _))
    · intro perm
      have pairs := List.Perm.eq_of_sortedLE List.sortedLE_insertionSort
        List.sortedLE_insertionSort (((List.perm_insertionSort (· ≤ ·) _).trans perm).trans
          (List.perm_insertionSort (· ≤ ·) _).symm)
      rw [pairs]

def plainQuery : List (Bytes × List Bytes) := [(bytes "b", [bytes "1"]), (bytes "a", [bytes "2"])]

/-- Two names in one order before and after they are encoded. -/
theorem plain_query_follows : FollowsSigV4 plainQuery true := by
  refine (canonical_query_iff _ _).2.mpr ?_
  decide +kernel

def bracedQuery : List (Bytes × List Bytes) :=
  [(bytes "z", [bytes "1"]), (bytes "\x7b", [bytes "2"])]

/-- `z` comes before `{`, and `%7B` before `z`. -/
theorem brace_behind_letter :
    canonicalQueryString bracedQuery true = bytes "z=1&%7B=2" ∧
      ¬ FollowsSigV4 bracedQuery true := by
  have code : canonicalQueryString bracedQuery true = bytes "z=1&%7B=2" := by
    decide +kernel
  have specified : joinPairs (((queryPairs bracedQuery true).map escapedPair).insertionSort
      (· ≤ ·)) = bytes "%7B=2&z=1" := by
    decide +kernel
  refine ⟨code, fun follows => ?_⟩
  have same := follows.specified
  rw [code, specified] at same
  exact absurd (bytes_inj.mp same) (by decide)

end Namros.Guarantees
