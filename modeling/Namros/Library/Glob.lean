import Mathlib.Data.List.Forall2
import Mathlib.Data.List.Infix
import Mathlib.Tactic.Common

/-!
# Glob patterns

Patterns in which `*` stands for any text and `?` for any character, up to a relation on the
other characters. Without wildcards a pattern is compared character by character; with one `*`
at its end it is compared with the start of the text.
-/

namespace Namros.Library

/-- A pattern in which `*` stands for any text and `?` for any character, the other characters
compared by `same`. -/
inductive GlobMatches (same : Char → Char → Prop) : List Char → List Char → Prop
  | nil : GlobMatches same [] []
  | star {p v : List Char} (skipped : List Char) :
      GlobMatches same p v → GlobMatches same ('*' :: p) (skipped ++ v)
  | one {p v : List Char} (c : Char) : GlobMatches same p v → GlobMatches same ('?' :: p) (c :: v)
  | char {p v : List Char} {c d : Char} (plain : c ≠ '*' ∧ c ≠ '?') :
      same c d → GlobMatches same p v → GlobMatches same (c :: p) (d :: v)

variable {same wider : Char → Char → Prop} {p v : List Char}

theorem GlobMatches.imp (imp : ∀ c d, same c d → wider c d) (matched : GlobMatches same p v) :
    GlobMatches wider p v := by
  induction matched with
  | nil => exact .nil
  | star skipped _ ih => exact .star skipped ih
  | one c _ ih => exact .one c ih
  | char plain alike _ ih => exact .char plain (imp _ _ alike) ih

theorem GlobMatches.append {q w : List Char} (first : GlobMatches same p v)
    (second : GlobMatches same q w) : GlobMatches same (p ++ q) (v ++ w) := by
  induction first with
  | nil => exact second
  | star skipped _ ih =>
    rw [List.append_assoc]
    exact .star skipped ih
  | one c _ ih => exact .one c ih
  | char plain alike _ ih => exact .char plain alike ih

/-- A pattern matches a text of its length that differs from it at wildcards only. -/
theorem globMatches_of_forall₂
    (alike : List.Forall₂ (fun c d => c = '*' ∨ c = '?' ∨ same c d) p v) :
    GlobMatches same p v := by
  induction alike with
  | nil => exact .nil
  | @cons c d p v alike _ ih =>
    by_cases star : c = '*'
    · subst star
      exact .star [d] ih
    · by_cases one : c = '?'
      · subst one
        exact .one d ih
      · exact .char ⟨star, one⟩ ((alike.resolve_left star).resolve_left one) ih

theorem globMatches_self (refl : ∀ c, same c c) (p : List Char) : GlobMatches same p p :=
  globMatches_of_forall₂ (List.forall₂_same.mpr fun c _ => .inr (.inr (refl c)))

theorem globMatches_star (v : List Char) : GlobMatches same ['*'] v := by
  simpa using GlobMatches.star v .nil

theorem globMatches_cons {c : Char} (plain : c ≠ '*' ∧ c ≠ '?') :
    GlobMatches same (c :: p) v ↔ ∃ d w, v = d :: w ∧ same c d ∧ GlobMatches same p w := by
  constructor
  · intro matched
    cases matched with
    | star => exact absurd rfl plain.1
    | one => exact absurd rfl plain.2
    | char _ alike rest => exact ⟨_, _, rfl, alike, rest⟩
  · rintro ⟨d, w, rfl, alike, rest⟩
    exact .char plain alike rest

theorem globMatches_nil : GlobMatches same [] v ↔ v = [] := by
  constructor
  · intro matched
    cases matched
    rfl
  · rintro rfl
    exact .nil

/-- A pattern without wildcards, and what may follow it. -/
theorem globMatches_append {q : List Char} (stars : '*' ∉ p) (ones : '?' ∉ p) :
    GlobMatches same (p ++ q) v ↔
      ∃ u w, v = u ++ w ∧ List.Forall₂ same p u ∧ GlobMatches same q w := by
  induction p generalizing v with
  | nil => simp
  | cons c p ih =>
    obtain ⟨star, stars⟩ := not_or.mp (List.mem_cons.not.mp stars)
    obtain ⟨one, ones⟩ := not_or.mp (List.mem_cons.not.mp ones)
    rw [List.cons_append, globMatches_cons ⟨Ne.symm star, Ne.symm one⟩]
    simp only [ih stars ones]
    constructor
    · rintro ⟨d, _, rfl, alike, u, w, rfl, rest, behind⟩
      exact ⟨d :: u, w, rfl, .cons alike rest, behind⟩
    · rintro ⟨_, w, rfl, alike, behind⟩
      cases alike with
      | cons alike rest => exact ⟨_, _, rfl, alike, _, w, rfl, rest, behind⟩

/-- The last character of a pattern, when it is no wildcard, is matched by the last of the
text. -/
theorem GlobMatches.getLast {c : Char} (matched : GlobMatches same (p ++ [c]) v)
    (plain : c ≠ '*' ∧ c ≠ '?') : ∃ d, v.getLast? = some d ∧ same c d := by
  generalize whole : p ++ [c] = pattern at matched
  induction matched generalizing p with
  | nil => simp at whole
  | star skipped rest ih =>
    cases p with
    | nil => exact absurd (List.cons.inj whole).1 plain.1
    | cons _ p =>
      obtain ⟨d, last, alike⟩ := ih (List.cons.inj whole).2
      exact ⟨d, by simp [List.getLast?_append, last], alike⟩
  | one x rest ih =>
    cases p with
    | nil => exact absurd (List.cons.inj whole).1 plain.2
    | cons _ p =>
      obtain ⟨d, last, alike⟩ := ih (List.cons.inj whole).2
      exact ⟨d, by simp [List.getLast?_cons, last], alike⟩
  | @char _ v _ d _ alike rest ih =>
    cases p with
    | nil =>
      obtain ⟨rfl, rfl⟩ := List.cons.inj whole
      cases rest
      exact ⟨d, rfl, alike⟩
    | cons _ p =>
      obtain ⟨d, last, alike⟩ := ih (List.cons.inj whole).2
      exact ⟨d, by simp [List.getLast?_cons, last], alike⟩

end Namros.Library
