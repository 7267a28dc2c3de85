import Mathlib.Data.Finmap
import Mathlib.Data.Set.Card

/-!
# Counting the entries of a keyed store

How many keys of a store satisfy a condition, computed from the key list, and how the count
moves when one key starts or stops satisfying it.
-/

namespace Namros.Library

variable {κ : Type} [DecidableEq κ] {V : κ → Type}

/-- The number of keys of the store that satisfy `p`. -/
def census (p : κ → Bool) (s : AList V) : Nat := (s.keys.filter p).length

/-- When only stored keys satisfy `p`, the census counts all keys that do. -/
theorem census_eq_ncard {p : κ → Bool} {s : AList V} (stored : ∀ k, p k = true → k ∈ s) :
    census p s = {k | p k = true}.ncard := by
  have listed : ((s.keys.filter p).toFinset : Set κ) = {k | p k = true} := by
    ext k
    simp only [List.coe_toFinset, List.mem_filter, Set.mem_ofPred_eq]
    exact ⟨fun both => both.2, fun holds => ⟨stored k holds, holds⟩⟩
  have distinct : (s.keys.filter p).Nodup := List.Nodup.filter p s.nodupKeys
  rw [← listed, Set.ncard_coe_finset, List.toFinset_card_of_nodup distinct, census]

theorem finite_selected {p : κ → Bool} {s : AList V} (stored : ∀ k, p k = true → k ∈ s) :
    {k | p k = true}.Finite :=
  s.keys.toFinset.finite_toSet.subset fun k holds =>
    List.mem_toFinset.mpr (stored k holds)

variable {p q : κ → Bool} {s t : AList V}

/-- One more key satisfies the condition. -/
theorem census_gain {k₀ : κ} (storedP : ∀ k, p k = true → k ∈ s) (storedQ : ∀ k, q k = true → k ∈ t)
    (before : p k₀ = false) (after : q k₀ = true) (others : ∀ k, k ≠ k₀ → q k = p k) :
    census q t = census p s + 1 := by
  have gained : {k | q k = true} = insert k₀ {k | p k = true} := by
    ext k
    by_cases same : k = k₀
    · simp [same, after]
    · simp [same, others k same]
  rw [census_eq_ncard storedP, census_eq_ncard storedQ, gained]
  exact Set.ncard_insert_of_notMem (by simp [before]) (finite_selected storedP)

/-- The same keys satisfy the condition. -/
theorem census_same (storedP : ∀ k, p k = true → k ∈ s) (storedQ : ∀ k, q k = true → k ∈ t)
    (same : ∀ k, q k = p k) : census q t = census p s := by
  rw [census_eq_ncard storedP, census_eq_ncard storedQ]
  simp [same]

end Namros.Library
