import Mathlib.Data.List.Basic

/-!
# Order statistics

The element of an ordered list with a given number of elements from it to the
end is the greatest bound that so many elements reach.
-/

namespace Pika.Foundation

variable {α : Type*} [LT α] [DecidableLT α]

/-- The number of elements that are not below a bound. -/
def reaching (bound : α) (elements : List α) : Nat :=
  elements.countP fun element => !decide (element < bound)

/-- The number does not depend on the order. -/
theorem reaching_perm (perm : first.Perm second) (bound : α) :
    reaching bound first = reaching bound second :=
  perm.countP_eq _

variable {low high : List α} {value bound : α}
variable (ordered : (low ++ value :: high).Pairwise fun first second => ¬second < first)

include ordered

/-- An element and those behind it reach it. -/
theorem length_lt_reaching (irrefl : ¬value < value) :
    high.length < reaching value (low ++ value :: high) := by
  have behind := (List.pairwise_cons.mp (List.pairwise_append.mp ordered).2.1).1
  have all : high.countP (fun element => !decide (element < value)) = high.length := by
    apply List.countP_eq_length.mpr
    intro element member
    simp [behind element member]
  rw [reaching, List.countP_append, List.countP_cons_of_pos (by simp [irrefl]), all]
  omega

/-- Only those behind an element reach a larger bound. -/
theorem reaching_le_length (larger : value < bound)
    (trans : ∀ element, ¬value < element → element < bound) :
    reaching bound (low ++ value :: high) ≤ high.length := by
  have before := (List.pairwise_append.mp ordered).2.2
  have none : low.countP (fun element => !decide (element < bound)) = 0 := by
    apply List.countP_eq_zero.mpr
    intro element member
    simp [trans element (before element member value List.mem_cons_self)]
  rw [reaching, List.countP_append, List.countP_cons_of_neg (by simp [larger]), none, Nat.zero_add]
  exact List.countP_le_length

end Pika.Foundation
