import Mathlib.Data.List.Basic
import Mathlib.Data.List.TakeWhile

/-!
# Texts cut at a separator

A text is cut at its first separator in one way only, and so is an escaped text at the first
separator that is not escaped.
-/

namespace Namros.Library.Delimited

variable {α : Type} {sep : α}

/-- The parts before and after the first separator. -/
def cutAt [DecidableEq α] (sep : α) (text : List α) : Option (List α × List α) :=
  match text.dropWhile (· ≠ sep) with
  | [] => none
  | _ :: rest => some (text.takeWhile (· ≠ sep), rest)

theorem cutAt_eq_some [DecidableEq α] {text before after : List α} :
    cutAt sep text = some (before, after) ↔ sep ∉ before ∧ text = before ++ sep :: after := by
  constructor
  · intro found
    have whole := List.takeWhile_append_dropWhile (p := (· ≠ sep)) (l := text)
    have stops := List.head?_dropWhile_not (· ≠ sep) text
    unfold cutAt at found
    cases dropped : text.dropWhile (· ≠ sep) with
    | nil =>
      rw [dropped] at found
      cases found
    | cons c rest =>
      rw [dropped] at found whole stops
      cases found
      obtain rfl : c = sep := by simpa using stops
      exact ⟨fun member => by simpa using List.mem_takeWhile_imp member, whole.symm⟩
  · rintro ⟨absent, rfl⟩
    have inside : ∀ c ∈ before, decide (c ≠ sep) = true :=
      fun c member => decide_eq_true fun same => absent (same ▸ member)
    rw [cutAt, List.dropWhile_append_of_pos inside, List.takeWhile_append_of_pos inside]
    simp

theorem cutAt_eq_none [DecidableEq α] {text : List α} : cutAt sep text = none ↔ sep ∉ text := by
  constructor
  · intro absent member
    obtain ⟨before, after, rfl, fresh⟩ := List.eq_append_cons_of_mem member
    rw [cutAt_eq_some.mpr ⟨fresh, rfl⟩] at absent
    cases absent
  · intro absent
    cases found : cutAt sep text with
    | none => rfl
    | some parts =>
      obtain ⟨_, rfl⟩ := cutAt_eq_some.mp found
      exact absurd (by simp) absent

/-! ## Escaped texts -/

/-- A text with a mark before each special character. -/
def escapeWith [DecidableEq α] (mark : α) (special text : List α) : List α :=
  text.flatMap fun c => if c ∈ special then [mark, c] else [c]

/-- An escaped text ends at the first separator that is not escaped. -/
theorem escapeWith_cut [DecidableEq α] {mark : α} {special : List α} (marked : mark ∈ special)
    (separates : sep ∈ special) (differ : mark ≠ sep) {a b x y : List α}
    (same : escapeWith mark special a ++ sep :: x =
      escapeWith mark special b ++ sep :: y) : a = b ∧ x = y := by
  induction a generalizing b with
  | nil =>
    cases b with
    | nil => simpa [escapeWith] using same
    | cons d b => by_cases other : d ∈ special <;> simp [escapeWith, other] at same <;> grind
  | cons c a ih =>
    cases b with
    | nil => by_cases one : c ∈ special <;> simp [escapeWith, one] at same <;> grind
    | cons d b =>
      have parts : c = d ∧ escapeWith mark special a ++ sep :: x =
          escapeWith mark special b ++ sep :: y := by
        by_cases one : c ∈ special <;> by_cases other : d ∈ special <;>
          simp [escapeWith, one, other] at same ⊢ <;> grind
      obtain ⟨rfl, later⟩ := parts
      simpa using ih later

theorem toDigits_inj {m n : Nat} : Nat.toDigits 10 m = Nat.toDigits 10 n ↔ m = n := by
  refine ⟨fun same => ?_, congrArg _⟩
  rw [← Nat.ofDigitChars_ten_toDigits (n := m), same, Nat.ofDigitChars_ten_toDigits]

end Namros.Library.Delimited
