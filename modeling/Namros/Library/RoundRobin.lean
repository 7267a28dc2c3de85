import Mathlib.Data.List.Rotate

/-!
# A list walked round

From any position, going round a list visits each entry as often as the list has it.
-/

namespace Namros.Library

variable {α : Type} (l : List α) (start : Nat) (default : α)

/-- The entry reached after `i` steps. -/
def cyclic (i : Nat) : α := l.getD ((start + i) % l.length) default

theorem map_cyclic : (List.range l.length).map (cyclic l start default) = l.rotate start := by
  apply List.ext_getElem
  · simp
  · intro i inside _
    have within : (start + i) % l.length < l.length := Nat.mod_lt _ (by simp at inside; omega)
    simp [cyclic, List.getElem_rotate, Nat.add_comm i, List.getElem?_eq_getElem within]

/-- `k` times round the list. -/
theorem count_cyclic [DecidableEq α] (a : α) (k : Nat) :
    ((List.range (k * l.length)).map (cyclic l start default)).count a = k * l.count a := by
  induction k with
  | zero => simp
  | succ k ih =>
    have again : cyclic l start default ∘ (k * l.length + ·) = cyclic l start default := by
      funext i
      simp [cyclic, Nat.add_left_comm start]
    rw [Nat.succ_mul, List.range_add, List.map_append, List.map_map, again, List.count_append, ih,
      map_cyclic, (List.rotate_perm l start).count_eq, Nat.succ_mul]

end Namros.Library
