import Mathlib.Data.List.Basic

/-!
# Searching an ordered list

A linear search over an ordered list gives up at the first element above its
target.  It finds the target exactly if the list has it, and where it stands it
divides the list into what is below and what is above.
-/

namespace Pika.Foundation

open List

variable {α : Type*}

/-- The place of the target, if nothing above it comes first. -/
def searchOrdered (compare : α → Ordering) : List α → Option Nat
  | [] => none
  | element :: elements =>
    match compare element with
    | .gt => none
    | .eq => some 0
    | .lt => (searchOrdered compare elements).map (· + 1)

/-- Behind an element that is not below the target, all are above it. -/
def OrderedBy (compare : α → Ordering) (elements : List α) : Prop :=
  elements.Pairwise fun first second => compare first ≠ .lt → compare second = .gt

/-- An element at the target divides a list. -/
structure Divides (compare : α → Ordering) (below : List α) (element : α)
    (above : List α) : Prop where
  here : compare element = .eq
  below_lt : ∀ other ∈ below, compare other = .lt
  above_gt : ∀ other ∈ above, compare other = .gt

variable {compare : α → Ordering} {elements below above : List α} {element : α}

/-- A search succeeds where the target divides the list, and fails if the list
does not have it. -/
theorem searchOrdered_cases (ordered : OrderedBy compare elements) :
    (∃ below element above, Divides compare below element above ∧
      elements = below ++ element :: above ∧ searchOrdered compare elements = some below.length) ∨
      (∀ element ∈ elements, compare element ≠ .eq) ∧ searchOrdered compare elements = none := by
  induction elements with
  | nil => exact .inr ⟨forall_mem_nil _, rfl⟩
  | cons first rest ih =>
    obtain ⟨behind, restOrdered⟩ := pairwise_cons.mp ordered
    rw [searchOrdered]
    cases here : compare first with
    | gt =>
      refine .inr ⟨?_, rfl⟩
      rintro element (_ | ⟨_, member⟩)
      · simp [here]
      · simp [behind element member (by simp [here])]
    | eq =>
      refine .inl ⟨[], first, rest, ⟨here, forall_mem_nil _, ?_⟩, rfl, rfl⟩
      exact fun other member => behind other member (by simp [here])
    | lt =>
      obtain ⟨below, element, above, divides, rfl, found⟩ | ⟨absent, missed⟩ := ih restOrdered
      · refine .inl ⟨first :: below, element, above,
          ⟨divides.here, ?_, divides.above_gt⟩, rfl, by simp [found]⟩
        exact forall_mem_cons.mpr ⟨here, divides.below_lt⟩
      · exact .inr ⟨forall_mem_cons.mpr ⟨by simp [here], absent⟩, by simp [missed]⟩

namespace Divides

variable (divides : Divides compare below element above)

include divides

/-- What is not above the target ends with it. -/
theorem filter_upTo (keeps : ∀ other, keep other = true ↔ compare other ≠ .gt) :
    (below ++ element :: above).filter keep = below ++ [element] := by
  rw [filter_append, filter_cons_of_pos, filter_eq_self.mpr,
    filter_eq_nil_iff.mpr]
  · intro other member
    simp [keeps, divides.above_gt other member]
  · intro other member
    simp [keeps, divides.below_lt other member]
  · simp [keeps, divides.here]

/-- What is above the target stands behind it. -/
theorem filter_behind (keeps : ∀ other, keep other = true ↔ compare other = .gt) :
    (below ++ element :: above).filter keep = above := by
  rw [filter_append, filter_cons_of_neg, filter_eq_nil_iff.mpr,
    filter_eq_self.mpr, nil_append]
  · intro other member
    simp [keeps, divides.above_gt other member]
  · intro other member
    simp [keeps, divides.below_lt other member]
  · simp [keeps, divides.here]

end Divides

end Pika.Foundation
