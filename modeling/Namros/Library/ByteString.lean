import Mathlib.Data.List.Lex
import Mathlib.Order.Basic

/-!
# Byte strings and prefix ranges

Byte strings in unsigned lexicographic order. The keys that start with a given prefix
form a half-open interval: from the prefix itself to the prefix with its last
incrementable byte incremented, or unbounded above when every byte is `0xff`.
-/

namespace Namros.Library

abbrev Bytes := List UInt8

instance bytesLawfulBEq : LawfulBEq Bytes := inferInstance

instance uint8LinearOrder : LinearOrder UInt8 where
  le_refl := UInt8.le_refl
  le_trans _ _ _ := UInt8.le_trans
  le_antisymm _ _ := UInt8.le_antisymm
  le_total := UInt8.le_total
  lt_iff_le_not_ge a b := by
    simp only [UInt8.lt_iff_toNat_lt, UInt8.le_iff_toNat_le]
    omega
  toDecidableLE := inferInstance
  toDecidableEq := inferInstance
  toDecidableLT := inferInstance

namespace Bytes

theorem cons_le_cons_iff {a b : UInt8} {x y : Bytes} :
    a :: x ≤ b :: y ↔ a < b ∨ a = b ∧ x ≤ y := by
  rw [← not_lt, List.cons_lt_cons_iff, ← not_lt]
  constructor
  · intro h
    rcases lt_trichotomy a b with less | same | more
    · exact Or.inl less
    · exact Or.inr ⟨same, fun h' => h (Or.inr ⟨same.symm, h'⟩)⟩
    · exact absurd (Or.inl more) h
  · rintro (less | ⟨same, rest⟩) (more | ⟨same', more⟩)
    · exact lt_asymm less more
    · exact absurd same' (ne_of_gt less)
    · exact absurd same (ne_of_gt more)
    · exact rest more

theorem nil_lt {x : Bytes} (nonempty : x ≠ []) : [] < x := by
  cases x with
  | nil => exact absurd rfl nonempty
  | cons b x => exact List.nil_lt_cons b x

/-- The successor of `x` in the order: no key lies strictly between. -/
theorem lt_iff_append_zero_le {x y : Bytes} : x < y ↔ x ++ [0] ≤ y := by
  induction x generalizing y with
  | nil =>
    cases y with
    | nil =>
      exact ⟨fun h => absurd h (lt_irrefl _),
        fun h => absurd (List.nil_lt_cons 0 []) (not_lt.mpr h)⟩
    | cons b y =>
      refine ⟨fun _ => ?_, fun _ => List.nil_lt_cons _ _⟩
      rw [List.nil_append, cons_le_cons_iff]
      rcases eq_or_ne 0 b with same | differs
      · exact Or.inr ⟨same, not_lt.mp (List.not_lt_nil _)⟩
      · exact Or.inl (lt_of_le_of_ne (UInt8.zero_le) differs)
  | cons a x ih =>
    cases y with
    | nil =>
      refine ⟨fun h => absurd h (List.not_lt_nil _), fun h => ?_⟩
      rw [List.cons_append] at h
      exact absurd (List.nil_lt_cons a (x ++ [0])) (not_lt.mpr h)
    | cons b y => rw [List.cons_append, cons_le_cons_iff, List.cons_lt_cons_iff, ih]

/-- The least string above every string with prefix `p`: trailing `0xff` bytes are cut and
the last remaining byte is incremented. Empty when there is no such string. -/
def prefixRangeEnd (p : Bytes) : Bytes :=
  match p.reverse.dropWhile (· == 0xff) with
  | [] => []
  | b :: rest => rest.reverse ++ [b + 1]

theorem prefixRangeEnd_cons (b : UInt8) (p : Bytes) :
    prefixRangeEnd (b :: p) =
      if prefixRangeEnd p = [] then (if b = 0xff then [] else [b + 1])
      else b :: prefixRangeEnd p := by
  unfold prefixRangeEnd
  rw [List.reverse_cons, List.dropWhile_append]
  cases rest : p.reverse.dropWhile (· == 0xff) with
  | nil =>
    by_cases last : b = 0xff
    · simp [last]
    · simp [last]
  | cons c q => simp

private theorem lt_succ_iff {a b : UInt8} (below : b ≠ 0xff) : a < b + 1 ↔ a ≤ b := by
  have bound : b.toNat ≠ 255 := fun h => below (UInt8.toNat_inj.mp h)
  have small := b.toNat_lt
  rw [UInt8.lt_iff_toNat_lt, UInt8.le_iff_toNat_le, UInt8.toNat_add]
  have one : UInt8.toNat 1 = 1 := rfl
  rw [one]
  omega

/-- A string has prefix `p` exactly when it lies between `p` and `prefixRangeEnd p`. -/
theorem isPrefix_iff_range (p x : Bytes) :
    p <+: x ↔ p ≤ x ∧ (prefixRangeEnd p = [] ∨ x < prefixRangeEnd p) := by
  induction p generalizing x with
  | nil => simp [prefixRangeEnd, not_lt.mp (List.not_lt_nil x)]
  | cons b p ih =>
    cases x with
    | nil =>
      have above := List.nil_lt_cons b p
      simp [not_le.mpr above]
    | cons c x =>
      rw [List.cons_prefix_cons, ih, cons_le_cons_iff, prefixRangeEnd_cons]
      by_cases unbounded : prefixRangeEnd p = []
      · by_cases top : b = 0xff
        · have noneAbove : ¬ b < c := by
            subst top
            exact not_lt.mpr (UInt8.le_iff_toNat_le.mpr (Nat.le_of_lt_succ c.toNat_lt))
          simp [unbounded, top] at noneAbove ⊢
          simp [noneAbove]
        · simp only [unbounded, top, if_true, if_false, and_true, List.cons_ne_nil,
            false_or, List.cons_lt_cons_iff, List.not_lt_nil, and_false, or_false,
            lt_succ_iff top]
          constructor
          · rintro ⟨rfl, le⟩
            exact ⟨Or.inr ⟨rfl, le⟩, le_refl _⟩
          · rintro ⟨less | same, le⟩
            · exact absurd le (not_le.mpr less)
            · exact same
      · simp only [unbounded, if_false, false_or, List.cons_ne_nil, List.cons_lt_cons_iff]
        constructor
        · rintro ⟨rfl, le, lt⟩
          exact ⟨Or.inr ⟨rfl, le⟩, Or.inr ⟨rfl, lt⟩⟩
        rintro ⟨less | ⟨same, le⟩, less' | ⟨same', lt⟩⟩
        · exact absurd less (lt_asymm less')
        · exact absurd same'.symm (ne_of_lt less)
        · exact absurd same.symm (ne_of_lt less')
        · exact ⟨same, le, lt⟩

theorem le_of_isPrefix {p x : Bytes} (starts : p <+: x) : p ≤ x :=
  ((isPrefix_iff_range p x).mp starts).1

/-- The strings with a prefix form an interval. -/
theorem isPrefix_of_between {p y z : Bytes} (lower : p ≤ y) (upper : y ≤ z)
    (starts : p <+: z) : p <+: y := by
  rw [isPrefix_iff_range] at starts ⊢
  refine ⟨lower, ?_⟩
  rcases starts.2 with unbounded | below
  · exact .inl unbounded
  · exact .inr (lt_of_le_of_lt upper below)

/-- The strings from the end of a prefix range on. -/
theorem prefixRangeEnd_le_iff {p x : Bytes} (bounded : prefixRangeEnd p ≠ []) :
    prefixRangeEnd p ≤ x ↔ p < x ∧ ¬ p <+: x := by
  constructor
  · intro above
    have outside : ¬ p <+: x := by
      rw [isPrefix_iff_range]
      rintro ⟨-, unbounded | below⟩
      · exact bounded unbounded
      · exact absurd above (not_le.mpr below)
    have inside : p < prefixRangeEnd p := by
      have self := (isPrefix_iff_range p p).mp ⟨[], List.append_nil p⟩
      rcases self.2 with unbounded | below
      · exact absurd unbounded bounded
      · exact below
    exact ⟨lt_of_lt_of_le inside above, outside⟩
  · rintro ⟨above, outside⟩
    by_contra below
    exact outside ((isPrefix_iff_range p x).mpr ⟨le_of_lt above, .inr (not_le.mp below)⟩)

/-- Strings of one length are ordered by their first difference. -/
theorem append_lt_append {a b : Bytes} (same : a.length = b.length) (less : a < b) (x y : Bytes) :
    a ++ x < b ++ y := by
  induction a generalizing b with
  | nil =>
    obtain rfl := List.length_eq_zero_iff.mp same.symm
    exact absurd less (List.not_lt_nil _)
  | cons c a ih =>
    cases b with
    | nil => simp at same
    | cons d b =>
      simp only [List.cons_append, List.cons_lt_cons_iff] at less ⊢
      exact less.imp_right (And.imp_right (ih (by simpa using same)))

end Bytes

end Namros.Library
