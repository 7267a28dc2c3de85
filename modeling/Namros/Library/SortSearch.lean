import Mathlib.Data.List.Sort
import Mathlib.Order.Monotone.Basic
import Mathlib.Tactic.Common

/-!
# Sorting and binary search

`sort.Search` of the Go library returns the least index from which its predicate holds on.
With a predicate that holds at one index only it looks at the middle of what is left, going
right each time, and so finds the index only when it is one of those positions. A list can be
sorted before its elements are mapped where the map keeps their order.
-/

namespace Namros.Library

/-- The loop of `sort.Search` between `i` and `j`. -/
def searchLoop (found : Nat → Bool) : Nat → Nat → Nat → Nat
  | 0, i, _ => i
  | fuel + 1, i, j =>
    if i < j then
      let h := (i + j) / 2
      if ¬ found h then searchLoop found fuel (h + 1) j else searchLoop found fuel i h
    else i

/-- `sort.Search`: every round shrinks the interval, so `n` rounds are enough. -/
def sortSearch (n : Nat) (found : Nat → Bool) : Nat := searchLoop found n 0 n

/-- The positions a search among `n` looks at while it finds nothing. -/
def probe (n : Nat) : Nat → Nat
  | 0 => n / 2
  | k + 1 => (probe n k + 1 + n) / 2

def Probed (n p : Nat) : Prop := ∃ k < n, probe n k = p

instance (n p : Nat) : Decidable (Probed n p) := inferInstanceAs (Decidable (∃ k < n, _))

theorem probe_le (n k : Nat) : probe n k ≤ n := by
  induction k with
  | zero => exact Nat.div_le_self n 2
  | succ k ih =>
    rw [probe]
    omega

theorem probe_mono (n : Nat) : Monotone (probe n) := by
  refine monotone_nat_of_le_succ fun k => ?_
  have bound := probe_le n k
  rw [probe]
  omega

/-- Every look but the last goes at least one position further. -/
theorem le_probe {n k : Nat} (inside : probe n k < n) : k ≤ probe n k := by
  induction k with
  | zero => exact Nat.zero_le _
  | succ k ih =>
    have before := ih (lt_of_le_of_lt (probe_mono n k.le_succ) inside)
    rw [probe] at inside ⊢
    omega

theorem probed_iff {n p : Nat} (inside : p < n) : Probed n p ↔ ∃ k, probe n k = p := by
  constructor
  · rintro ⟨k, -, here⟩
    exact ⟨k, here⟩
  · rintro ⟨k, rfl⟩
    exact ⟨k, lt_of_le_of_lt (le_probe inside) inside, rfl⟩

/-- A search that finds nothing ends at the upper end. -/
theorem searchLoop_misses {found : Nat → Bool} {fuel i j : Nat} (ordered : i ≤ j)
    (enough : j - i ≤ fuel) (misses : ∀ x, i ≤ x → x < j → found x = false) :
    searchLoop found fuel i j = j := by
  induction fuel generalizing i with
  | zero =>
    rw [searchLoop]
    omega
  | succ fuel ih =>
    rw [searchLoop]
    by_cases more : i < j
    · have missed := misses ((i + j) / 2) (by omega) (by omega)
      simp only [if_pos more, missed, Bool.false_eq_true, not_false_eq_true, if_true]
      apply ih
      · omega
      · omega
      · intro x low high
        exact misses x (by omega) high
    · rw [if_neg more]
      omega

section Single

variable {n p : Nat} {found : Nat → Bool}

/-- A search of the rest that is about to look at the `k`-th position. -/
theorem searchLoop_single (inside : p < n) (single : ∀ x < n, found x = decide (x = p))
    {fuel i k : Nat} (low : i ≤ p) (enough : n - i ≤ fuel) (here : (i + n) / 2 = probe n k) :
    (∃ m ≥ k, probe n m = p) ∧ searchLoop found fuel i n = p ∨
      (∀ m ≥ k, probe n m ≠ p) ∧ searchLoop found fuel i n = n := by
  induction fuel generalizing i k with
  | zero => omega
  | succ fuel ih =>
    have below : probe n k < n := by omega
    rw [searchLoop, if_pos (by omega)]
    simp only [here, single _ below]
    rcases lt_trichotomy (probe n k) p with before | same | behind
    · rw [if_pos (by simp; omega)]
      rcases ih (i := probe n k + 1) (k := k + 1) (by omega) (by omega) rfl with hit | missed
      · obtain ⟨⟨m, high, at_⟩, ends⟩ := hit
        exact .inl ⟨⟨m, by omega, at_⟩, ends⟩
      · refine .inr ⟨fun m high at_ => ?_, missed.2⟩
        rcases Nat.eq_or_lt_of_le high with rfl | higher
        · omega
        · exact missed.1 m higher at_
    · rw [if_neg (by simpa using same)]
      subst same
      refine .inl ⟨⟨k, le_refl k, rfl⟩, searchLoop_misses low (by omega) ?_⟩
      intro x _ high
      rw [single x (by omega), decide_eq_false (by omega)]
    · -- the index lies left of the position, and the search goes right
      rw [if_pos (by simp; omega)]
      refine .inr ⟨fun m high at_ => ?_, searchLoop_misses (by omega) (by omega) ?_⟩
      · have further := probe_mono n high
        omega
      · intro x far high
        rw [single x high, decide_eq_false (by omega)]

/-- The search finds the one index its predicate holds at exactly when it looks there. -/
theorem sortSearch_single (inside : p < n) (single : ∀ x < n, found x = decide (x = p)) :
    sortSearch n found = if Probed n p then p else n := by
  have start : (0 + n) / 2 = probe n 0 := by rw [Nat.zero_add, probe]
  rcases searchLoop_single inside single (Nat.zero_le p) (Nat.sub_le n 0) start with hit | missed
  · obtain ⟨⟨m, -, at_⟩, ends⟩ := hit
    rw [if_pos ((probed_iff inside).mpr ⟨m, at_⟩)]
    exact ends
  · rw [if_neg fun looked => ?_]
    · exact missed.2
    · obtain ⟨m, at_⟩ := (probed_iff inside).mp looked
      exact missed.1 m (Nat.zero_le m) at_

end Single

/-! ## Sorting before a map -/

/-- Sorting can go before a map exactly where the map keeps the order. -/
theorem map_insertionSort_iff {α β : Type} [LinearOrder α] [LinearOrder β] {f : α → β}
    {l : List α} :
    (l.insertionSort (· ≤ ·)).map f = (l.map f).insertionSort (· ≤ ·) ↔
      MonotoneOn f {a | a ∈ l} := by
  have sorted := List.sortedLE_insertionSort (l := l)
  constructor
  · intro same p inP q inQ le
    have images : ((l.insertionSort (· ≤ ·)).map f).Pairwise (· ≤ ·) :=
      same ▸ List.sortedLE_insertionSort.pairwise
    obtain ⟨i, inside, rfl⟩ := List.getElem_of_mem ((List.mem_insertionSort (· ≤ ·)).mpr inP)
    obtain ⟨j, inside', rfl⟩ := List.getElem_of_mem ((List.mem_insertionSort (· ≤ ·)).mpr inQ)
    rcases lt_or_ge i j with before | behind
    · exact List.pairwise_iff_getElem.mp (List.pairwise_map.mp images) i j inside inside' before
    · have back : (l.insertionSort (· ≤ ·))[j] ≤ (l.insertionSort (· ≤ ·))[i] :=
        sorted.getElem_le_getElem_of_le behind
      exact (congrArg f (le_antisymm le back)).le
  · intro keeps
    apply List.Perm.eq_of_sortedLE
    · refine (List.pairwise_map.mpr (sorted.pairwise.imp_of_mem fun inP inQ le => ?_)).sortedLE
      exact keeps ((List.mem_insertionSort _).mp inP) ((List.mem_insertionSort _).mp inQ) le
    · exact List.sortedLE_insertionSort
    · exact ((List.perm_insertionSort _ _).map f).trans (List.perm_insertionSort _ _).symm

end Namros.Library
