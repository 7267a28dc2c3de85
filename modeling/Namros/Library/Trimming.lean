import Mathlib.Data.List.Basic
import Mathlib.Data.List.DropRight
import Mathlib.Data.List.Infix
import Mathlib.Data.List.TakeWhile

/-!
# Trimming a list

Removing elements of a kind from both ends of a list, and removing pieces of a fixed set from
the start or the end of a list, as often as one is found there. No piece is empty, and none is
the start of another, so that what is removed is determined.
-/

namespace Namros.Library

variable {α : Type}

/-! ## Elements of a kind -/

/-- The text without the leading and trailing elements of a kind. -/
def trimText (cut : α → Bool) (text : List α) : List α :=
  ((text.dropWhile cut).reverse.dropWhile cut).reverse

section

variable {cut : α → Bool} {text : List α} {c : α}

theorem exists_trimText (cut : α → Bool) (text : List α) : ∃ left right,
    (∀ c ∈ left, cut c = true) ∧ (∀ c ∈ right, cut c = true) ∧
      text = left ++ trimText cut text ++ right := by
  refine ⟨text.takeWhile cut, ((text.dropWhile cut).reverse.takeWhile cut).reverse, ?_, ?_, ?_⟩
  · exact fun c member => List.mem_takeWhile_imp member
  · exact fun c member => List.mem_takeWhile_imp (List.mem_reverse.mp member)
  · rw [trimText, List.append_assoc, ← List.reverse_append, List.takeWhile_append_dropWhile,
      List.reverse_reverse, List.takeWhile_append_dropWhile]

theorem trimText_isPrefix_dropWhile (cut : α → Bool) (text : List α) :
    trimText cut text <+: text.dropWhile cut := List.rdropWhile_prefix cut _

theorem head_trimText (first : (trimText cut text).head? = some c) : cut c = false := by
  obtain ⟨rest, split⟩ := trimText_isPrefix_dropWhile cut text
  have kept := List.head?_dropWhile_not cut text
  rw [← split, List.head?_append, first] at kept
  exact kept

theorem getLast_trimText (last : (trimText cut text).getLast? = some c) : cut c = false := by
  have kept := List.head?_dropWhile_not cut (text.dropWhile cut).reverse
  rw [trimText, List.getLast?_reverse] at last
  rw [last] at kept
  exact kept

theorem trimText_trimText (cut : α → Bool) (text : List α) :
    trimText cut (trimText cut text) = trimText cut text := by
  have again : (trimText cut text).dropWhile cut = trimText cut text := by
    rw [List.dropWhile_eq_self_iff]
    intro nonempty
    rw [(trimText_isPrefix_dropWhile cut text).getElem nonempty]
    exact List.dropWhile_get_zero_not _ _ _
  have twice := List.rdropWhile_idempotent cut (text.dropWhile cut)
  unfold trimText at again ⊢
  rw [again]
  exact twice

end

/-! ## Pieces -/

variable (pieces : List (List α))

/-- A concatenation of pieces. -/
def Concatenated (l : List α) : Prop := ∃ parts : List (List α), parts ⊆ pieces ∧ parts.flatten = l

/-- Pieces of which at most one is found at the start of any list. -/
structure PrefixFree : Prop where
  nonempty : ∀ piece ∈ pieces, piece ≠ []
  same : ∀ piece ∈ pieces, ∀ other ∈ pieces, piece <+: other → piece = other

variable {pieces} {l rest left right : List α}

@[simp] theorem concatenated_nil : Concatenated pieces ([] : List α) := ⟨[], by simp, rfl⟩

theorem Concatenated.cons {piece : List α} (member : piece ∈ pieces)
    (tail : Concatenated pieces rest) : Concatenated pieces (piece ++ rest) := by
  obtain ⟨parts, members, rfl⟩ := tail
  exact ⟨piece :: parts, List.cons_subset.mpr ⟨member, members⟩, rfl⟩

theorem Concatenated.mem {a : α} (made : Concatenated pieces l) (member : a ∈ l) :
    ∃ piece ∈ pieces, a ∈ piece := by
  obtain ⟨parts, members, rfl⟩ := made
  obtain ⟨piece, found, inside⟩ := List.mem_flatten.mp member
  exact ⟨piece, members found, inside⟩

theorem Concatenated.reverse (made : Concatenated pieces l) :
    Concatenated (pieces.map List.reverse) l.reverse := by
  obtain ⟨parts, members, rfl⟩ := made
  refine ⟨(parts.map List.reverse).reverse, ?_, List.reverse_flatten.symm⟩
  intro piece member
  exact List.map_subset _ members (List.mem_reverse.mp member)

section

variable [DecidableEq α] (pieces)

/-- The list with at most the given number of pieces removed from its start. -/
def stripPieces : Nat → List α → List α
  | 0, l => l
  | n + 1, l =>
    match pieces.find? (fun piece => piece <+: l) with
    | none => l
    | some piece => stripPieces n (l.drop piece.length)

/-- The list without the pieces at its start. -/
def trimStart (l : List α) : List α := stripPieces pieces l.length l

/-- The list without the pieces at its end. -/
def trimEnd (l : List α) : List α := (trimStart (pieces.map List.reverse) l.reverse).reverse

end

variable [DecidableEq α]

/-- What is removed are pieces. -/
theorem exists_stripPieces (n : Nat) (l : List α) :
    ∃ left, Concatenated pieces left ∧ l = left ++ stripPieces pieces n l := by
  induction n generalizing l with
  | zero => exact ⟨[], concatenated_nil, rfl⟩
  | succ n ih =>
    rw [stripPieces]
    cases found : pieces.find? (fun piece => piece <+: l) with
    | none => exact ⟨[], concatenated_nil, rfl⟩
    | some piece =>
      have starts : piece <+: l := by simpa using List.find?_some found
      obtain ⟨left, made, split⟩ := ih (l.drop piece.length)
      refine ⟨piece ++ left, .cons (List.mem_of_find?_eq_some found) made, ?_⟩
      rw [List.append_assoc, ← split]
      exact (List.prefix_iff_eq_append.mp starts).symm

theorem exists_trimStart (pieces : List (List α)) (l : List α) :
    ∃ left, Concatenated pieces left ∧ l = left ++ trimStart pieces l :=
  exists_stripPieces _ l

theorem exists_trimEnd (pieces : List (List α)) (l : List α) :
    ∃ right, Concatenated pieces right ∧ l = trimEnd pieces l ++ right := by
  obtain ⟨left, made, split⟩ := exists_trimStart (pieces.map List.reverse) l.reverse
  refine ⟨left.reverse, by simpa using made.reverse, ?_⟩
  rw [trimEnd, ← List.reverse_append, ← split, List.reverse_reverse]

/-- A list that starts with no piece stays. -/
theorem stripPieces_eq_self (n : Nat) (stops : ∀ piece ∈ pieces, ¬ piece <+: l) :
    stripPieces pieces n l = l := by
  cases n with
  | zero => rfl
  | succ n =>
    have none : pieces.find? (fun piece => piece <+: l) = none := by
      simpa using stops
    rw [stripPieces, none]

theorem PrefixFree.find (free : PrefixFree pieces) {piece : List α} (member : piece ∈ pieces) :
    pieces.find? (fun other => other <+: piece ++ rest) = some piece := by
  obtain ⟨other, found⟩ : ∃ other, pieces.find? (fun other => other <+: piece ++ rest) = some other :=
    Option.isSome_iff_exists.mp (List.find?_isSome.mpr ⟨piece, member, by simp⟩)
  have starts : other <+: piece ++ rest := by simpa using List.find?_some found
  have inside := List.mem_of_find?_eq_some found
  have same : other = piece := by
    rcases List.prefix_or_prefix_of_prefix starts (List.prefix_append piece rest) with first | second
    · exact free.same _ inside _ member first
    · exact (free.same _ member _ inside second).symm
  rw [found, same]

/-- The pieces before a list that starts with none are all removed. -/
theorem PrefixFree.stripPieces_append (free : PrefixFree pieces)
    (stops : ∀ piece ∈ pieces, ¬ piece <+: rest) (made : Concatenated pieces left) {n : Nat}
    (enough : left.length ≤ n) : stripPieces pieces n (left ++ rest) = rest := by
  obtain ⟨parts, members, rfl⟩ := made
  induction parts generalizing n with
  | nil => exact stripPieces_eq_self n stops
  | cons piece parts ih =>
    have member := members List.mem_cons_self
    have positive := List.length_pos_iff.mpr (free.nonempty piece member)
    rw [List.flatten_cons, List.length_append] at enough
    obtain ⟨m, rfl⟩ : ∃ m, n = m + 1 := ⟨n - 1, by omega⟩
    rw [List.flatten_cons, List.append_assoc, stripPieces, free.find member]
    simp only [List.drop_left]
    exact ih (fun part inside => members (List.mem_cons_of_mem _ inside)) (by omega)

theorem PrefixFree.trimStart_append (free : PrefixFree pieces)
    (stops : ∀ piece ∈ pieces, ¬ piece <+: rest) (made : Concatenated pieces left) :
    trimStart pieces (left ++ rest) = rest :=
  free.stripPieces_append stops made (by simp)

theorem PrefixFree.trimEnd_append (free : PrefixFree (pieces.map List.reverse))
    (stops : ∀ piece ∈ pieces, ¬ piece <:+ rest) (made : Concatenated pieces right) :
    trimEnd pieces (rest ++ right) = rest := by
  rw [trimEnd, List.reverse_append, free.trimStart_append _ made.reverse, List.reverse_reverse]
  intro piece member starts
  obtain ⟨original, inside, rfl⟩ := List.mem_map.mp member
  exact stops original inside (List.reverse_prefix.mp starts)

end Namros.Library
