import Mathlib.Logic.Basic
import Mathlib.Order.Lattice

/-!
# Bounds of a range

A range is given by a lower and an upper bound, each of which contains its
value or leaves it out.
-/

namespace Pika.Foundation

/-- An end of a range, inclusive or exclusive. -/
inductive Bound (α : Type) where
  | closed (value : α)
  | exclusive (value : α)
  deriving DecidableEq

namespace Bound

/-- The value at the end. -/
def value : Bound α → α
  | closed value | exclusive value => value

/-- The bound at another value. -/
def map (f : α → β) : Bound α → Bound β
  | closed value => closed (f value)
  | exclusive value => exclusive (f value)

/-- The bound contains its value. -/
def isClosed : Bound α → Bool
  | closed _ => true
  | exclusive _ => false

section

variable {α : Type} [LinearOrder α]

/-- A value satisfies a lower bound. -/
def AtLeast : Bound α → α → Prop
  | closed low, value => low ≤ value
  | exclusive low, value => low < value

/-- A value satisfies an upper bound. -/
def AtMost : Bound α → α → Prop
  | closed high, value => value ≤ high
  | exclusive high, value => value < high

instance : (bound : Bound α) → (value : α) → Decidable (bound.AtLeast value)
  | closed low, value => inferInstanceAs (Decidable (low ≤ value))
  | exclusive low, value => inferInstanceAs (Decidable (low < value))

instance : (bound : Bound α) → (value : α) → Decidable (bound.AtMost value)
  | closed high, value => inferInstanceAs (Decidable (value ≤ high))
  | exclusive high, value => inferInstanceAs (Decidable (value < high))

end

end Bound

section

variable {α β : Type} [LinearOrder α]

/-- The items whose value satisfies both bounds. -/
def between (lower upper : Bound α) (value : β → α) (items : List β) : List β :=
  items.filter fun item => lower.AtLeast (value item) && upper.AtMost (value item)

/-- The items whose value does not satisfy both bounds. -/
def outside (lower upper : Bound α) (value : β → α) (items : List β) : List β :=
  items.filter fun item => !(lower.AtLeast (value item) && upper.AtMost (value item))

variable {value : β → α}

theorem between_eq_nil_iff :
    between lower upper value items = [] ↔ ∀ item ∈ items,
        ¬ (lower.AtLeast (value item) ∧ upper.AtMost (value item)) := by
  simp [between, List.filter_eq_nil_iff]

theorem outside_eq_self_iff :
    outside lower upper value items = items ↔ between lower upper value items = [] := by
  rw [between_eq_nil_iff, outside, List.filter_eq_self]
  simp [← not_and_or]

end

/-- Two tests keep the same items of a list exactly if they agree on it. -/
theorem filter_eq_filter_iff {items : List α} :
    items.filter first = items.filter second ↔ ∀ item ∈ items, first item = second item := by
  constructor
  · intro same item member
    have kept : item ∈ items.filter first ↔ item ∈ items.filter second := by
      rw [same]
    simp only [List.mem_filter, member, true_and] at kept
    exact Bool.eq_iff_iff.mpr kept
  · exact List.filter_congr

end Pika.Foundation
