import Mathlib.Algebra.BigOperators.Group.List.Basic
import Mathlib.Algebra.GroupWithZero.Nat
import Mathlib.Algebra.Order.BigOperators.Group.List
import Mathlib.Algebra.Order.Group.Nat

/-!
# Runs of interleaved calls

A system takes one event after another. A run that meets a condition at every step keeps what
each such step keeps. The calls in flight are a list, an event replaces one of them, and a
measure of the calls is summed over the list.
-/

namespace Namros.Library

section Runs

variable {σ ε : Type} {step : σ → ε → σ} {meets : σ → ε → Prop}

/-- Every step of the run meets the condition, in the state before it. -/
def Throughout (step : σ → ε → σ) (meets : σ → ε → Prop) : σ → List ε → Prop
  | _, [] => True
  | s, event :: events => meets s event ∧ Throughout step meets (step s event) events

instance decidableThroughout [∀ s e, Decidable (meets s e)] :
    (s : σ) → (events : List ε) → Decidable (Throughout step meets s events)
  | _, [] => inferInstanceAs (Decidable True)
  | s, event :: events =>
    have := decidableThroughout (step s event) events
    inferInstanceAs (Decidable (_ ∧ _))

/-- The invariant rule. -/
theorem Throughout.invariant {I : σ → Prop} {s : σ} {events : List ε}
    (run : Throughout step meets s events) (start : I s)
    (keeps : ∀ s event, I s → meets s event → I (step s event)) :
    I (events.foldl step s) := by
  induction events generalizing s with
  | nil => exact start
  | cons event events ih => exact ih run.2 (keeps s event start run.1)

theorem throughout_append {s : σ} {first second : List ε} :
    Throughout step meets s (first ++ second) ↔
      Throughout step meets s first ∧ Throughout step meets (first.foldl step s) second := by
  induction first generalizing s with
  | nil => simp [Throughout]
  | cons event first ih => simp [Throughout, ih, and_assoc]

theorem Throughout.and {meets' : σ → ε → Prop} {s : σ} {events : List ε}
    (first : Throughout step meets s events) (second : Throughout step meets' s events) :
    Throughout step (fun s event => meets s event ∧ meets' s event) s events := by
  induction events generalizing s with
  | nil => trivial
  | cons event events ih => exact ⟨⟨first.1, second.1⟩, ih first.2 second.2⟩

/-- What no step lowers is not lowered by a run. -/
theorem Throughout.monotone {I : σ → Prop} {s : σ} {events : List ε} {β : Type} [Preorder β]
    {f : σ → β} (run : Throughout step meets s events) (start : I s)
    (keeps : ∀ s event, I s → meets s event → I (step s event))
    (raises : ∀ s event, I s → meets s event → f s ≤ f (step s event)) :
    f s ≤ f (events.foldl step s) := by
  induction events generalizing s with
  | nil => exact le_refl _
  | cons event events ih =>
    exact (raises s event start run.1).trans (ih run.2 (keeps s event start run.1))

end Runs

section Calls

variable {α : Type} {calls : List α} {i : Nat} {a : α}

/-- The sum of a measure of the calls. -/
def tally (measure : α → Nat) (calls : List α) : Nat := (calls.map measure).sum

theorem le_tally (measure : α → Nat) (found : calls[i]? = some a) :
    measure a ≤ tally measure calls :=
  List.single_le_sum (fun _ _ => Nat.zero_le _) _
    (List.mem_map_of_mem (List.mem_of_getElem? found))

theorem tally_eq_zero {measure : α → Nat} (none : ∀ call ∈ calls, measure call = 0) :
    tally measure calls = 0 :=
  List.sum_eq_zero (by simpa using none)

theorem tally_replicate (measure : α → Nat) (count : Nat) (none : measure a = 0) :
    tally measure (List.replicate count a) = 0 := by
  simp [tally, none]

/-- Replacing a call moves the sum by the difference of the two. -/
theorem tally_set (measure : α → Nat) (found : calls[i]? = some a) (b : α) :
    tally measure (calls.set i b) + measure a = tally measure calls + measure b := by
  induction calls generalizing i with
  | nil => simp at found
  | cons call calls ih =>
    cases i with
    | zero =>
      obtain rfl : call = a := by simpa using found
      simp [tally]
      omega
    | succ i =>
      have tail := ih (i := i) (by simpa using found)
      simp only [tally, List.set_cons_succ, List.map_cons, List.sum_cons] at tail ⊢
      omega

/-- Where one call makes up the whole sum, the others add nothing. -/
theorem tally_others (measure : α → Nat) (found : calls[i]? = some a)
    (only : tally measure calls ≤ measure a) {b : α} :
    ∀ call ∈ calls.set i b, call = b ∨ measure call = 0 := by
  induction calls generalizing i with
  | nil => simp at found
  | cons call calls ih =>
    simp only [tally, List.map_cons, List.sum_cons] at only
    cases i with
    | zero =>
      obtain rfl : call = a := by simpa using found
      have none : (calls.map measure).sum = 0 := by omega
      intro other member
      rcases List.mem_cons.mp member with rfl | later
      · exact .inl rfl
      · exact .inr (List.sum_eq_zero_iff.mp none _ (List.mem_map_of_mem later))
    | succ i =>
      have found : calls[i]? = some a := by simpa using found
      have rest := le_tally measure found
      unfold tally at rest
      intro other member
      rcases List.mem_cons.mp member with rfl | later
      · exact .inr (by omega)
      · exact ih found (by unfold tally; omega) other later

/-- A call is replaced, or still there. -/
theorem eq_or_mem_set (found : calls[i]? = some a) {b call : α} (member : call ∈ calls) :
    call = a ∨ call ∈ calls.set i b := by
  obtain ⟨j, at_⟩ := List.mem_iff_getElem?.mp member
  by_cases here : i = j
  · subst here
    exact .inl (Option.some.inj (at_.symm.trans found))
  · exact .inr (List.mem_of_getElem? ((List.getElem?_set_ne here).trans at_))

/-- A property of all calls, after one of them is replaced. -/
theorem forall_mem_set {P : α → Prop} {b : α} (others : ∀ call ∈ calls, P call) (new : P b) :
    ∀ call ∈ calls.set i b, P call := by
  intro call member
  rcases List.mem_or_eq_of_mem_set member with old | rfl
  · exact others call old
  · exact new

theorem getElem?_set_cases {j : Nat} {b : α} (found : (calls.set i a)[j]? = some b) :
    (j = i ∧ b = a) ∨ (j ≠ i ∧ calls[j]? = some b) := by
  rw [List.getElem?_set] at found
  split at found
  · rename_i same
    split at found
    · cases found
      exact .inl ⟨same.symm, rfl⟩
    · cases found
  · rename_i other
    exact .inr ⟨fun same => other same.symm, found⟩

theorem getElem?_append_of_some {more : List α} (found : calls[i]? = some a) :
    (calls ++ more)[i]? = some a :=
  (List.getElem?_append_left (List.getElem?_eq_some_iff.mp found).1).trans found

theorem count_eraseIdx [DecidableEq α] {b : α} (picked : calls[i]? = some a) :
    (calls.eraseIdx i).count b + [a].count b = calls.count b := by
  obtain ⟨inside, rfl⟩ := List.getElem?_eq_some_iff.mp picked
  rw [← (List.getElem_cons_eraseIdx_perm inside).count_eq, List.count_cons, List.count_cons,
    List.count_nil, Nat.zero_add]

end Calls

end Namros.Library
